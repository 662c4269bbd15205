import LoxLang.Proofs.Source.Lexemes
import LoxLang.Source.Scan

/-!
Cutting a source text is maximal munch: it finds the only segments that the lexical rules allow.
-/

namespace LoxLang

/-- What is cut off where a character opens a segment, by the branch that is taken there. -/
inductive Headed (c : Char) (cs : List Char) : SegmentClass × Nat → Prop where
  | single {kind : Kind} : singleSymbol? c = some kind → Headed c cs (.symbol kind, 0)
  | extended {extended alone : Kind} : extensibleSymbol? c = some (extended, alone) →
    cs.head? = some '=' →
    Headed c cs (.symbol extended, 1)
  | alone {extended alone : Kind} : extensibleSymbol? c = some (extended, alone) →
    cs.head? ≠ some '=' →
    Headed c cs (.symbol alone, 0)
  | lineComment {rest : List Char} : c = '/' → cs = '/' :: rest →
    Headed c cs (.lineComment, 1 + runLength (· != '\n') rest)
  | blockComment {rest : List Char} {inner : Nat} : c = '/' → cs = '*' :: rest →
    commentLength? rest = some inner →
    Headed c cs (.blockComment, 1 + inner + 2)
  | openComment {rest : List Char} : c = '/' → cs = '*' :: rest → commentLength? rest = none →
    Headed c cs (.openComment, cs.length)
  | slash : c = '/' → (∀ d ∈ cs.head?, d ≠ '/' ∧ d ≠ '*') → Headed c cs (.symbol .slash, 0)
  | blank : c = ' ' ∨ c = '\r' ∨ c = '\t' ∨ c = '\n' → Headed c cs (.blank, 0)
  | openText : c = '"' → cs.drop (runLength (· != '"') cs) = [] →
    Headed c cs (.openText, runLength (· != '"') cs)
  | text : c = '"' → cs.drop (runLength (· != '"') cs) ≠ [] →
    Headed c cs (.text, runLength (· != '"') cs + 1)
  | number : isDigit c = true → Headed c cs (.number, numberTail cs)
  | word : isAlpha c = true → Headed c cs (.word, runLength isAlphanumeric cs)
  | stray : singleSymbol? c = none → extensibleSymbol? c = none → c ≠ '/' →
    isAlphanumeric c = false →
    Headed c cs (.stray, 0)

/-- A slash opens a comment if another slash or a star follows, and is a symbol otherwise. -/
theorem headed_slash (cs : List Char) : Headed '/' cs (segmentHead '/' cs) := by
  -- The character behind the slash decides.
  cases cs with
  | nil => exact .slash rfl (by simp)
  | cons d rest =>
    by_cases again : d = '/'
    · subst again
      exact .lineComment rfl rfl
    by_cases star : d = '*'
    · subst star
      cases found : commentLength? rest with
      | some inner => simpa [segmentHead, singleSymbol?, extensibleSymbol?, found]
        using .blockComment rfl rfl found
      | none => simpa [segmentHead, singleSymbol?, extensibleSymbol?, found]
        using .openComment rfl rfl found
    · have bare : segmentHead '/' (d :: rest) = (.symbol .slash, 0) := by
        simp [segmentHead, singleSymbol?, extensibleSymbol?, again, star]
      rw [bare]
      exact .slash rfl (by simp [again, star])

/-- Whatever is cut off is cut off by one of the branches. -/
theorem headed_segmentHead (c : Char) (cs : List Char) : Headed c cs (segmentHead c cs) := by
  by_cases slash : c = '/'
  · subst slash
    exact headed_slash cs
  -- The branches in their order: each is taken where those before it are not.
  unfold segmentHead
  cases single : singleSymbol? c with
  | some kind => exact .single single
  | none =>
    cases extensible : extensibleSymbol? c with
    | some kinds =>
      by_cases equals : cs.head? = some '='
      · simpa only [if_pos equals] using .extended extensible equals
      · simpa only [if_neg equals] using .alone extensible equals
    | none =>
      simp only [if_neg slash]
      by_cases blank : c = ' ' ∨ c = '\r' ∨ c = '\t' ∨ c = '\n'
      · simpa only [if_pos blank] using .blank blank
      simp only [if_neg blank]
      by_cases quote : c = '"'
      · simp only [if_pos quote, List.isEmpty_iff]
        by_cases unended : cs.drop (runLength (· != '"') cs) = []
        · simpa only [if_pos unended] using .openText quote unended
        · simpa only [if_neg unended] using .text quote unended
      simp only [if_neg quote]
      by_cases digit : isDigit c = true
      · simpa only [if_pos digit] using .number digit
      simp only [if_neg digit]
      by_cases alpha : isAlpha c = true
      · simpa only [if_pos alpha] using .word alpha
      · simpa only [if_neg alpha]
          using .stray single extensible slash (by simp [isAlphanumeric, digit, alpha])

/-- A string, a comment or a blank is cut off as a whole. -/
theorem IsPassage.segmentHead_eq {cls : SegmentClass} {chars rest : List Char}
    (is : IsPassage cls chars rest) :
    ∃ c more, chars = c :: more ∧ segmentHead c (more ++ rest) = (cls, more.length) := by
  -- The first character settles the branch; the search behind it stops where the passage ends.
  cases is with
  | @text inner rest free =>
    refine ⟨'"', _, rfl, ?_⟩
    have found : runLength (· != '"') (inner ++ '"' :: rest) = inner.length :=
      runLength_upTo free (by simp)
    simp [segmentHead, singleSymbol?, extensibleSymbol?, found]
  | @openText inner free =>
    refine ⟨'"', _, rfl, ?_⟩
    have found : runLength (· != '"') (inner ++ []) = inner.length := runLength_upTo free (by simp)
    rw [List.append_nil] at found
    simp [segmentHead, singleSymbol?, extensibleSymbol?, found]
  | @lineComment inner rest free stops =>
    refine ⟨'/', _, rfl, ?_⟩
    have found := runLength_upTo free stops
    simp [segmentHead, singleSymbol?, extensibleSymbol?, found, Nat.add_comm]
  | @blockComment inner rest free =>
    refine ⟨'/', _, rfl, ?_⟩
    have found := commentLength?_append free rest
    simp [segmentHead, singleSymbol?, extensibleSymbol?, found]
    omega
  | @openComment inner free =>
    refine ⟨'/', _, rfl, ?_⟩
    simp [segmentHead, singleSymbol?, extensibleSymbol?, commentLength?_of_free free]
  | @blank c rest is =>
    refine ⟨c, [], rfl, ?_⟩
    simp only [List.mem_cons, List.not_mem_nil, or_false] at is
    rcases is with rfl | rfl | rfl | rfl <;> rfl

/-- A string, a comment or a blank that stands at the front of a text is what is cut off there. -/
theorem IsPassage.of_segmentHead {cls front : SegmentClass} {chars rest cs : List Char} {c : Char}
    {n : Nat} (is : IsPassage cls chars rest) (whole : chars ++ rest = c :: cs)
    (head : segmentHead c cs = (front, n)) :
    IsPassage front (c :: cs.take n) (cs.drop n) := by
  obtain ⟨d, more, rfl, found⟩ := is.segmentHead_eq
  obtain ⟨rfl, rfl⟩ : d = c ∧ more ++ rest = cs := by simpa using whole
  rw [found] at head
  cases head
  rw [List.take_left, List.drop_left]
  exact is

/-- A digit opens a number, and a letter opens a word. -/
theorem segmentHead_alphanumeric {c : Char} (is : isAlphanumeric c = true) (cs : List Char) :
    segmentHead c cs =
      if isDigit c = true then (.number, numberTail cs)
      else (.word, runLength isAlphanumeric cs) := by
  -- Neither of them is a symbol, a blank or a quote.
  have single : singleSymbol? c = none := by
    unfold singleSymbol?
    split <;> first | rfl | cases is
  have extensible : extensibleSymbol? c = none := by
    unfold extensibleSymbol?
    split <;> first | rfl | cases is
  have slash : c ≠ '/' := by
    rintro rfl
    cases is
  have blank : ¬(c = ' ' ∨ c = '\r' ∨ c = '\t' ∨ c = '\n') := by
    rintro (rfl | rfl | rfl | rfl) <;> cases is
  have quote : c ≠ '"' := by
    rintro rfl
    cases is
  by_cases digit : isDigit c = true
  · simp [segmentHead, single, extensible, slash, blank, quote, digit]
  · have alpha : isAlpha c = true := by simpa [isAlphanumeric, digit] using is
    simp [segmentHead, single, extensible, slash, blank, quote, digit, alpha]

/-- No letter is a digit. -/
theorem isDigit_of_isAlpha {c : Char} (alpha : isAlpha c = true) : isDigit c = false := by
  simp only [isAlpha, isDigit, Bool.or_eq_true, Bool.and_eq_true, decide_eq_true_eq, beq_iff_eq,
    Char.le_def, UInt32.le_iff_toNat_le, Bool.and_eq_false_iff, decide_eq_false_iff_not] at alpha ⊢
  rcases alpha with (small | large) | rfl
  · right
    have : '9'.val.toNat < 'a'.val.toNat := by decide
    omega
  · right
    have : '9'.val.toNat < 'A'.val.toNat := by decide
    omega
  · decide

/-- Digits that no point follows continue a number by themselves. -/
theorem numberTail_append {run rest : List Char} (digits : ∀ c ∈ run, isDigit c = true)
    (stops : ∀ c ∈ rest.head?, isDigit c = false ∧ c ≠ '.') :
    numberTail (run ++ rest) = run.length := by
  have found := runLength_append digits fun c first => (stops c first).1
  unfold numberTail
  simp only [found, List.drop_left]
  split
  · exact absurd rfl (stops '.' rfl).2
  · rfl

/-- A point continues a number with the digits behind it, if there are any. -/
theorem numberTail_point {run : List Char} (digits : ∀ c ∈ run, isDigit c = true)
    (rest : List Char) :
    numberTail (run ++ '.' :: rest) =
      if runLength isDigit rest = 0 then run.length
      else run.length + 1 + runLength isDigit rest := by
  have found : runLength isDigit (run ++ '.' :: rest) = run.length :=
    runLength_append digits fun c first => Option.mem_some_iff.mp first ▸ rfl
  unfold numberTail
  simp only [found, List.drop_left]

/-- A digit and what continues it are a number. -/
theorem isLexeme_number {c : Char} (digit : isDigit c = true) (cs : List Char) :
    IsLexeme .number (c :: cs.take (numberTail cs)) := by
  obtain ⟨run, rest, rfl, _, digits, stops⟩ := exists_run isDigit cs
  have whole : ∀ d ∈ c :: run, isDigit d = true := by simpa [digit] using digits
  by_cases point : ∃ more, rest = '.' :: more
  · obtain ⟨more, rfl⟩ := point
    obtain ⟨places, behind, rfl, length, placeDigits, _⟩ := exists_run isDigit more
    rw [numberTail_point digits, length]
    split
    case isTrue =>
      rw [List.take_left]
      exact .whole (by simp) whole
    case isFalse present =>
      -- The point and the digits behind it belong to the number.
      rw [Nat.add_assoc, Nat.add_comm 1, List.take_length_add_append, List.take_succ_cons,
        List.take_left, ← List.cons_append]
      exact .fraction (by simp) whole (fun absent => present (by simp [absent])) placeDigits
  · have other : ∀ d ∈ rest.head?, isDigit d = false ∧ d ≠ '.' := by
      intro d first
      refine ⟨stops d first, fun same => point ?_⟩
      obtain ⟨more, rfl⟩ := List.head?_eq_some_iff.mp (same ▸ first)
      exact ⟨more, rfl⟩
    rw [numberTail_append digits other, List.take_left]
    exact .whole (by simp) whole

/-- A number is continued by all digits at the front, at least. -/
theorem runLength_le_numberTail (cs : List Char) : runLength isDigit cs ≤ numberTail cs := by
  unfold numberTail
  dsimp only
  split
  · split <;> omega
  · exact Nat.le_refl _

/-- A letter and what continues it are a word. -/
theorem isLexeme_word {c : Char} (alpha : isAlpha c = true) (cs : List Char) :
    IsLexeme .word (c :: cs.take (runLength isAlphanumeric cs)) := by
  obtain ⟨run, rest, rfl, length, all, _⟩ := exists_run isAlphanumeric cs
  rw [length, List.take_left]
  exact .word alpha all

/-- A symbol that stands alone is in the table. -/
theorem mem_symbols_of_single {c : Char} {kind : Kind} (found : singleSymbol? c = some kind) :
    ([c], kind) ∈ symbols := by
  unfold singleSymbol? at found
  split at found <;> cases found <;> decide

/-- A symbol that an equals sign extends is in the table, with the sign and without it. -/
theorem mem_symbols_of_extensible {c : Char} {extended alone : Kind}
    (found : extensibleSymbol? c = some (extended, alone)) :
    ([c, '='], extended) ∈ symbols ∧ ([c], alone) ∈ symbols := by
  unfold extensibleSymbol? at found
  split at found <;> cases found <;> decide

/-- Where no string, comment or blank stands, a lexeme or one stray character is cut off. -/
theorem NoPassage.segmentHead_cases {c : Char} {cs : List Char} (none_ : NoPassage (c :: cs))
    {cls : SegmentClass} {n : Nat} (head : segmentHead c cs = (cls, n)) :
    IsLexeme cls (c :: cs.take n) ∨ cls = .stray ∧ n = 0 := by
  obtain ⟨plain, bare⟩ := noPassage_iff.mp none_
  have headed := headed_segmentHead c cs
  rw [head] at headed
  cases headed with
  | single found => exact .inl (.symbol (mem_symbols_of_single found))
  | extended found equals =>
    obtain ⟨rest, rfl⟩ := List.head?_eq_some_iff.mp equals
    exact .inl (.symbol (mem_symbols_of_extensible found).1)
  | alone found => exact .inl (.symbol (mem_symbols_of_extensible found).2)
  | slash isSlash =>
    subst isSlash
    rw [List.take_zero]
    exact .inl (.symbol (by decide))
  | number digit => exact .inl (isLexeme_number digit cs)
  | word alpha => exact .inl (isLexeme_word alpha cs)
  | stray => exact .inr ⟨rfl, rfl⟩
  -- A slash in front of a slash or a star opens a comment, which does not stand here.
  | lineComment isSlash next => exact absurd rfl (bare isSlash '/' (by rw [next]; rfl)).1
  | blockComment isSlash next => exact absurd rfl (bare isSlash '*' (by rw [next]; rfl)).2
  | openComment isSlash next => exact absurd rfl (bare isSlash '*' (by rw [next]; rfl)).2
  | blank isBlank => rcases isBlank with rfl | rfl | rfl | rfl <;> simp at plain
  | openText quote | text quote =>
    subst quote
    simp at plain

/-- What is cut off the front of a text is a string, a comment, a blank, a lexeme or
one stray character. -/
theorem segmentHead_cases {c : Char} {cs : List Char} {cls : SegmentClass} {n : Nat}
    (head : segmentHead c cs = (cls, n)) :
    IsPassage cls (c :: cs.take n) (cs.drop n) ∨ IsLexeme cls (c :: cs.take n) ∨
      cls = .stray ∧ n = 0 := by
  by_cases none_ : NoPassage (c :: cs)
  · exact .inr (none_.segmentHead_cases head)
  · simp only [NoPassage, not_forall, not_not] at none_
    obtain ⟨_, chars, rest, is, whole⟩ := none_
    exact .inl (is.of_segmentHead whole head)

/-- A stray character is no symbol, no slash, no digit and no letter. -/
theorem of_segmentHead_stray {c : Char} {cs : List Char} (stray : (segmentHead c cs).1 = .stray) :
    (singleSymbol? c = none ∧ extensibleSymbol? c = none ∧ c ≠ '/') ∧ isAlphanumeric c = false := by
  have headed := headed_segmentHead c cs
  generalize segmentHead c cs = head at headed stray
  cases headed with
  | stray single extensible slash other => exact ⟨⟨single, extensible, slash⟩, other⟩
  | single | extended | alone | lineComment | blockComment | openComment | slash | blank | openText
  | text | number
  | word => cases stray

/-- Of a symbol at the front of a text nothing is left behind. -/
theorem segmentHead_symbol {c : Char} {more : List Char} {kind : Kind}
    (listed : (c :: more, kind) ∈ symbols) (rest : List Char) :
    more.length ≤ (segmentHead c (more ++ rest)).2 ∧ (segmentHead c more).1 = .symbol kind := by
  have named : ∀ entry ∈ symbols,
      (segmentHead (entry.1.headD ' ') entry.1.tail).1 = .symbol entry.2 := by decide
  have forms : ∀ entry ∈ symbols, entry.1.tail = [] ∨ entry.1.tail = ['='] ∧
      singleSymbol? (entry.1.headD ' ') = none ∧
        (extensibleSymbol? (entry.1.headD ' ')).isSome = true := by decide
  refine ⟨?_, named _ listed⟩
  -- Only an equals sign can be left behind, and a symbol that it extends takes it in.
  rcases forms _ listed with (rfl : more = []) | ⟨(rfl : more = ['=']), single, extensible⟩
  · exact Nat.zero_le _
  · obtain ⟨kinds, found⟩ := Option.isSome_iff_exists.mp extensible
    rw [List.headD_cons] at single found
    simp [segmentHead, single, found]

/-- What a lexeme is can be told from its first character and what continues it. -/
theorem IsLexeme.exists_cons {cls : SegmentClass} {chars : List Char} (is : IsLexeme cls chars) :
    ∃ c more, chars = c :: more ∧
      ((∃ kind, cls = .symbol kind ∧ (c :: more, kind) ∈ symbols) ∨
        (cls = .number ∧ isDigit c = true ∧ ∃ run rest, more = run ++ rest ∧
          (∀ d ∈ run, isDigit d = true) ∧
          (rest = [] ∨ ∃ places, rest = '.' :: places ∧ places ≠ [] ∧ ∀ d ∈ places,
            isDigit d = true)) ∨
        (cls = .word ∧ isAlpha c = true ∧ ∀ d ∈ more, isAlphanumeric d = true)) := by
  -- No lexeme is empty, so each has a first character that its rule speaks of.
  cases is with
  | symbol listed =>
    have filled : ∀ entry ∈ symbols, entry.1 ≠ [] := by decide
    obtain ⟨c, more, rfl⟩ := List.exists_cons_of_ne_nil (filled _ listed)
    exact ⟨c, more, rfl, .inl ⟨_, rfl, listed⟩⟩
  | whole filled digits =>
    obtain ⟨c, more, rfl⟩ := List.exists_cons_of_ne_nil filled
    refine ⟨c, more, rfl, .inr (.inl ⟨rfl, digits c (by simp), more, [], by simp, ?_, .inl rfl⟩)⟩
    exact fun d member => digits d (by simp [member])
  | fraction filled digits present placeDigits =>
    obtain ⟨c, more, rfl⟩ := List.exists_cons_of_ne_nil filled
    refine ⟨c, _, rfl,
      .inr (.inl ⟨rfl, digits c (by simp), more, _, rfl, ?_, .inr ⟨_, rfl, present, placeDigits⟩⟩)⟩
    exact fun d member => digits d (by simp [member])
  | word alpha all => exact ⟨_, _, rfl, .inr (.inr ⟨rfl, alpha, all⟩)⟩

/-- A lexeme at the front of a text is cut off with all its characters; alone, it is
cut off as what it is. -/
theorem IsLexeme.segmentHead_spec {cls : SegmentClass} {c : Char} {more : List Char}
    (is : IsLexeme cls (c :: more)) (rest : List Char) :
    more.length ≤ (segmentHead c (more ++ rest)).2 ∧ (segmentHead c (more ++ rest)).1 ≠ .stray ∧
      (segmentHead c more).1 = cls := by
  obtain ⟨_, _, same, shape⟩ := is.exists_cons
  cases same
  rcases shape with ⟨kind, rfl, listed⟩ | ⟨rfl, digit, run, behind, rfl, digits, shape⟩ |
    ⟨rfl, alpha, all⟩
  · have known : ∀ entry ∈ symbols, entry.1.head?.all
        (fun d => (singleSymbol? d).isSome || (extensibleSymbol? d).isSome || d == '/') =
          true := by decide
    obtain ⟨length, alone⟩ := segmentHead_symbol listed rest
    refine ⟨length, fun stray => ?_, alone⟩
    simpa [of_segmentHead_stray stray] using known _ listed
  · simp only [segmentHead_alphanumeric
      (show isAlphanumeric c = true by simp [isAlphanumeric, digit]), digit, if_true]
    refine ⟨?_, nofun, trivial⟩
    rcases shape with rfl | ⟨places, rfl, present, placeDigits⟩
    · rw [List.append_nil]
      exact Nat.le_trans (length_le_runLength digits rest) (runLength_le_numberTail _)
    · -- The digits behind the point are all taken, and there is one at least.
      have longer := length_le_runLength placeDigits rest
      have filled : 0 < places.length := List.length_pos_iff.mpr present
      rw [List.append_assoc, List.cons_append, numberTail_point digits, if_neg (by omega)]
      simp only [List.length_append, List.length_cons]
      omega
  · simp only [segmentHead_alphanumeric
      (show isAlphanumeric c = true by simp [isAlphanumeric, alpha]), isDigit_of_isAlpha alpha,
      Bool.false_eq_true, if_false]
    exact ⟨length_le_runLength all rest, nofun, trivial⟩

/-- The segment that is cut off the front of a text. -/
def frontSegment (c : Char) (cs : List Char) : Segment :=
  { cls := (segmentHead c cs).1, chars := c :: cs.take (segmentHead c cs).2 }

/-- A text is cut by cutting off its front, and then the rest. -/
theorem segments_cons (c : Char) (cs : List Char) :
    segments (c :: cs) = frontSegment c cs :: segments (cs.drop (segmentHead c cs).2) := by
  rw [segments]
  rfl

/-- What is cut off and what is left are the whole text. -/
theorem frontSegment_append (c : Char) (cs : List Char) :
    (frontSegment c cs).chars ++ cs.drop (segmentHead c cs).2 = c :: cs := by
  simp [frontSegment]

/-- What is cut off as something else is no string, comment or blank, and none stands there. -/
theorem noPassage_of_segmentHead {c : Char} {cs : List Char}
    (other : ∀ chars rest, ¬IsPassage (segmentHead c cs).1 chars rest) : NoPassage (c :: cs) := by
  rintro cls chars rest is whole
  exact other _ _ (is.of_segmentHead whole rfl)

/-- Strings, comments and blanks are no lexemes. -/
theorem IsPassage.not_isLexeme {cls : SegmentClass} {chars rest others : List Char}
    (is : IsPassage cls chars rest) :
    ¬IsLexeme cls others := by
  intro lexeme
  cases lexeme <;> cases is

/-- A lexeme at the front of a text has the first character of the text, and no more
than is cut off. -/
theorem IsLexeme.of_prefix {cls : SegmentClass} {chars : List Char} {c : Char} {cs : List Char}
    (is : IsLexeme cls chars) (front : chars <+: c :: cs) :
    chars.length ≤ (frontSegment c cs).chars.length ∧ (segmentHead c cs).1 ≠ .stray := by
  obtain ⟨d, more, rfl, _⟩ := is.exists_cons
  obtain ⟨rest, same⟩ := front
  obtain ⟨rfl, rfl⟩ : d = c ∧ more ++ rest = cs := by simpa using same
  obtain ⟨longer, known, _⟩ := is.segmentHead_spec rest
  refine ⟨?_, known⟩
  simp only [frontSegment, List.length_cons, List.length_take, List.length_append]
  omega

namespace Segment

/-- What is cut off the front of a text stands there by the rules. -/
theorem opens_frontSegment (c : Char) (cs : List Char) :
    (frontSegment c cs).Opens (cs.drop (segmentHead c cs).2) := by
  rcases head : segmentHead c cs with ⟨cls, n⟩
  -- A passage, a lexeme or a stray character; the last two stand only where no passage opens.
  rcases segmentHead_cases head with passage | lexeme | ⟨rfl, rfl⟩
  · refine .passage ?_
    simpa [frontSegment, head] using passage
  · have none_ : NoPassage (c :: cs) := by
      refine noPassage_of_segmentHead fun chars rest passage => ?_
      rw [head] at passage
      exact passage.not_isLexeme lexeme
    -- No longer lexeme stands here: the one that is cut off is as long as any.
    refine .lexeme ?_ (by simpa [frontSegment, head] using lexeme) fun _ _ other front => ?_
    · simpa [frontSegment, head] using none_
    · refine (other.of_prefix ?_).1
      simpa [frontSegment, head] using front
  · have none_ : NoPassage (c :: cs) := by
      refine noPassage_of_segmentHead fun chars rest passage => ?_
      rw [head] at passage
      cases passage
    have stray : frontSegment c cs = { cls := .stray, chars := [c] } := by simp [frontSegment, head]
    rw [stray, List.drop_zero]
    exact .stray none_ fun _ _ other front => (other.of_prefix front).2 (by rw [head])

/-- What stands at the front of a text has a first character. -/
theorem Opens.chars_ne_nil {s : Segment} {rest : List Char} (opens : s.Opens rest) :
    s.chars ≠ [] := by
  cases opens with
  | passage is =>
    obtain ⟨c, more, same, _⟩ := is.segmentHead_eq
    simp [same]
  | lexeme _ is =>
    obtain ⟨c, more, same, _⟩ := is.exists_cons
    simp [same]
  | stray => simp

/-- What stands at the front of a text by the rules is what is cut off there. -/
theorem Opens.eq_frontSegment {s : Segment} {c : Char} {cs rest : List Char} (opens : s.Opens rest)
    (whole : s.chars ++ rest = c :: cs) :
    s = frontSegment c cs ∧ rest = cs.drop (segmentHead c cs).2 := by
  -- It is enough to compare the segments, as the rest of the text is then the same.
  suffices same : s = frontSegment c cs by
    refine ⟨same, ?_⟩
    rw [← frontSegment_append, ← same] at whole
    exact List.append_cancel_left whole
  rcases head : segmentHead c cs with ⟨cls, n⟩
  have shape := segmentHead_cases head
  have split : (c :: cs.take n) ++ cs.drop n = c :: cs := by simp
  cases opens with
  | passage is =>
    obtain ⟨d, more, same, found⟩ := is.segmentHead_eq
    rw [same] at whole
    obtain ⟨rfl, rfl⟩ : d = c ∧ more ++ rest = cs := by simpa using whole
    rcases s with ⟨_, _⟩
    cases same
    simp [frontSegment, found]
  | lexeme none_ is longest =>
    rw [whole] at none_ longest
    have front : s.chars <+: c :: cs := ⟨rest, whole⟩
    rcases shape with passage | lexeme | ⟨rfl, rfl⟩
    · exact absurd split (none_ _ _ _ passage)
    · -- Neither of the two lexemes is longer than the other.
      have longer := (is.of_prefix front).1
      have shorter := longest _ _ lexeme ⟨_, split⟩
      rw [frontSegment, head] at longer
      have chars : s.chars = c :: cs.take n :=
        (List.prefix_of_prefix_length_le front ⟨_, split⟩ longer).eq_of_length
          (Nat.le_antisymm longer shorter)
      -- Their characters are the same, and so they are lexemes of one class.
      rw [chars] at is
      have cls_eq : s.cls =
          cls := (is.segmentHead_spec []).2.2.symm.trans (lexeme.segmentHead_spec []).2.2
      rw [frontSegment, head, ← chars, ← cls_eq]
    · exact absurd (by rw [head]) (is.of_prefix front).2
  | stray none_ missing =>
    obtain ⟨rfl, rfl⟩ : _ = c ∧ rest = cs := by simpa using whole
    rcases shape with passage | lexeme | ⟨rfl, rfl⟩
    · exact absurd split (none_ _ _ _ passage)
    · exact absurd ⟨_, split⟩ (missing _ _ lexeme)
    · simp [frontSegment, head]

end Segment

/-- Whether each segment stands by the rules at the front of what remains of the text. -/
def Munches : List Segment → Prop
  | [] => True
  | s :: rest => s.Opens (rest.flatMap Segment.chars) ∧ Munches rest

/-- The segments of a text are cut by the rules. -/
theorem munches_segments (cs : List Char) : Munches (segments cs) := by
  fun_induction segments cs with
  | case1 => trivial
  | case2 c cs head ih =>
    refine ⟨?_, ih⟩
    rw [flatMap_chars_segments]
    exact Segment.opens_frontSegment c cs

/-- Segments that are cut by the rules are those of the text that they make up. -/
theorem Munches.eq_segments {parts : List Segment} (munches : Munches parts) :
    parts = segments (parts.flatMap Segment.chars) := by
  induction parts with
  | nil => simp [segments]
  | cons s rest ih =>
    obtain ⟨opens, later⟩ := munches
    obtain ⟨c, cs, whole⟩ : ∃ c cs, s.chars ++ rest.flatMap Segment.chars = c :: cs :=
      List.exists_cons_of_ne_nil (by simp [opens.chars_ne_nil])
    obtain ⟨rfl, left⟩ := opens.eq_frontSegment whole
    rw [List.flatMap_cons, whole, segments_cons, ← left, ← ih later]

/-- No lexeme holds a line end. -/
theorem IsLexeme.count_lineEnds {cls : SegmentClass} {chars : List Char} (is : IsLexeme cls chars) :
    chars.count '\n' = 0 := by
  have foreign {accepts : Char → Bool} (other : accepts '\n' = false) {chars : List Char}
      (all : ∀ c ∈ chars, accepts c = true) : '\n' ∉ chars := by
    intro member
    exact absurd ((all _ member).symm.trans other) (by decide)
  rw [List.count_eq_zero]
  -- Symbols are listed; digits and letters are told by what a line end is not.
  cases is with
  | symbol listed =>
    have symbolic : ∀ entry ∈ symbols, '\n' ∉ entry.1 := by decide
    exact symbolic _ listed
  | whole _ all => exact foreign (by decide) all
  | fraction _ all _ placeDigits =>
    have digit : isDigit '\n' = false := by decide
    simpa using ⟨foreign digit all, foreign digit placeDigits⟩
  | word alpha all =>
    refine foreign (by decide : isAlphanumeric '\n' = false) fun c member => ?_
    rcases List.mem_cons.mp member with rfl | later
    · rw [isAlphanumeric, alpha, Bool.true_or]
    · exact all c later

/-- All line ends of a segment are counted: those of the other classes hold none. -/
theorem Segment.Opens.lineEnds_eq {s : Segment} {rest : List Char} (opens : s.Opens rest) :
    s.lineEnds = s.chars.count '\n' := by
  cases opens with
  | passage is =>
    rcases s with ⟨cls, chars⟩
    cases is with
    | text | openText | blockComment | openComment | blank => rfl
    | lineComment free => exact (List.count_eq_zero.mpr (by simpa using free)).symm
  | lexeme _ is =>
    rcases s with ⟨cls, chars⟩
    have none := is.count_lineEnds
    cases is <;> exact none.symm
  | @stray c rest blankless =>
    -- A line end on its own would be a blank.
    have other : c ≠ '\n' := fun same => blankless .blank [c] rest (.blank (by simp [same])) rfl
    exact (List.count_eq_zero.mpr (by simpa using other.symm)).symm

/-- The line that segments end on is counted on from the line that the first of them ends on. -/
theorem Munches.endLine_cons {s : Segment} {rest : List Segment} (munches : Munches (s :: rest))
    (line : Nat) :
    line + ((s :: rest).flatMap Segment.chars).count '\n' =
      line + s.lineEnds + (rest.flatMap Segment.chars).count '\n' := by
  rw [List.flatMap_cons, List.count_append, munches.1.lineEnds_eq, Nat.add_assoc]

end LoxLang
