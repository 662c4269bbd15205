import LoxLang.Source.Segment
import Mathlib.Data.List.TakeWhile

/-! The rules of the lexical grammar, stated apart from the way in which a source text is cut. -/

namespace LoxLang

/-- The symbols of the language as they are written. -/
def symbols : List (List Char × Kind) :=
  [(['('], .leftParen), ([')'], .rightParen), (['\x7b'], .leftBrace), (['\x7d'], .rightBrace),
    ([','], .comma), (['.'], .dot), (['-'], .minus), (['+'], .plus), ([';'], .semicolon),
    (['/'], .slash), (['*'], .star), (['!'], .bang), (['!', '='], .bangEqual), (['='], .equal),
    (['=', '='], .equalEqual), (['>'], .greater), (['>', '='], .greaterEqual), (['<'], .less),
    (['<', '='], .lessEqual)]

/-- Whether characters are a symbol, a number or a word. -/
inductive IsLexeme : SegmentClass → List Char → Prop where
  | symbol {chars : List Char} {kind : Kind} : (chars, kind) ∈ symbols →
    IsLexeme (.symbol kind) chars
  | whole {digits : List Char} : digits ≠ [] → (∀ c ∈ digits, isDigit c = true) →
    IsLexeme .number digits
  | fraction {digits places : List Char} :
    digits ≠ [] → (∀ c ∈ digits, isDigit c = true) → places ≠ [] →
      (∀ c ∈ places, isDigit c = true) →
      IsLexeme .number (digits ++ '.' :: places)
  | word {first : Char} {more : List Char} :
    isAlpha first = true → (∀ c ∈ more, isAlphanumeric c = true) → IsLexeme .word (first :: more)

/--
Whether characters are a string, a comment or a blank, in front of the rest of a text.

A string ends at the next quote, a line comment before the next line end, and a block comment
behind the next star and slash; a string or a block comment without an end takes all there is.
-/
inductive IsPassage : SegmentClass → List Char → List Char → Prop where
  | text {inner rest : List Char} : '"' ∉ inner → IsPassage .text ('"' :: inner ++ ['"']) rest
  | openText {inner : List Char} : '"' ∉ inner → IsPassage .openText ('"' :: inner) []
  | lineComment {inner rest : List Char} :
    '\n' ∉ inner → (∀ c ∈ rest.head?, c = '\n') → IsPassage .lineComment ('/' :: '/' :: inner) rest
  | blockComment {inner rest : List Char} :
    ¬['*', '/'] <:+: inner → IsPassage .blockComment ('/' :: '*' :: inner ++ ['*', '/']) rest
  | openComment {inner : List Char} : ¬['*', '/'] <:+: inner →
    IsPassage .openComment ('/' :: '*' :: inner) []
  | blank {c : Char} {rest : List Char} : c ∈ [' ', '\t', '\r', '\n'] → IsPassage .blank [c] rest

/-- Whether no string, comment or blank stands at the front of a text. -/
def NoPassage (cs : List Char) : Prop :=
  ∀ cls chars rest, IsPassage cls chars rest → chars ++ rest ≠ cs

/--
Whether a segment stands at the front of a text, with the given rest behind it.

Strings, comments and blanks come first; otherwise it is the longest lexeme there, or one
character if there is none.
-/
inductive Segment.Opens : Segment → List Char → Prop where
  | passage {s : Segment} {rest : List Char} : IsPassage s.cls s.chars rest → Opens s rest
  | lexeme {s : Segment} {rest : List Char} :
    NoPassage (s.chars ++ rest) → IsLexeme s.cls s.chars →
      (∀ cls chars, IsLexeme cls chars → chars <+: s.chars ++ rest →
        chars.length ≤ s.chars.length) → Opens s rest
  | stray {c : Char} {rest : List Char} :
    NoPassage (c :: rest) → (∀ cls chars, IsLexeme cls chars → ¬chars <+: c :: rest) →
      Opens { cls := .stray, chars := [c] } rest

section

variable {accepts : Char → Bool}

/-- A run ends where a character of another class stands. -/
theorem runLength_append {inner rest : List Char} (all : ∀ c ∈ inner, accepts c = true)
    (stops : ∀ c ∈ rest.head?, accepts c = false) :
    runLength accepts (inner ++ rest) = inner.length := by
  induction inner with
  | nil =>
    cases rest with
    | nil => rfl
    | cons c rest => simp [runLength, stops c rfl]
  | cons c inner ih =>
    have later := ih fun d member => all d (by simp [member])
    simp only [runLength] at later ⊢
    simp [all c (by simp), later]

/-- Where a run ends is determined: in one text, there is one way to take a run of a
class off the front. -/
theorem append_inj_of_stops {run other rest others : List Char} (all : ∀ c ∈ run, accepts c = true)
    (otherAll : ∀ c ∈ other, accepts c = true) (stops : ∀ c ∈ rest.head?, accepts c = false)
    (otherStops : ∀ c ∈ others.head?, accepts c = false) (same : run ++ rest = other ++ others) :
    run = other ∧ rest = others := by
  have length : run.length = other.length := by
    rw [← runLength_append all stops, same, runLength_append otherAll otherStops]
  exact List.append_inj same length

/-- A run is as long as the characters of its class at the front, at least. -/
theorem length_le_runLength {inner : List Char} (all : ∀ c ∈ inner, accepts c = true)
    (rest : List Char) :
    inner.length ≤ runLength accepts (inner ++ rest) := by
  induction inner with
  | nil => exact Nat.zero_le _
  | cons c inner ih =>
    have later := ih fun d member => all d (by simp [member])
    simp only [runLength] at later ⊢
    simpa [all c (by simp)] using later

/-- A text is a run and what stands behind it. -/
theorem exists_run (accepts : Char → Bool) (cs : List Char) :
    ∃ run rest, cs = run ++ rest ∧ runLength accepts cs = run.length ∧
      (∀ c ∈ run, accepts c = true) ∧
      ∀ c ∈ rest.head?, accepts c = false := by
  refine ⟨cs.takeWhile accepts, cs.dropWhile accepts, List.takeWhile_append_dropWhile.symm,
    rfl, ?_, ?_⟩
  · intro c member
    exact List.mem_takeWhile_imp member
  · intro c first
    have stopped := List.head?_dropWhile_not accepts cs
    rw [first] at stopped
    simpa using stopped

end

/-- What stands before the first of some character is a run of the others. -/
theorem runLength_upTo {last : Char} {inner rest : List Char} (free : last ∉ inner)
    (stops : ∀ c ∈ rest.head?, c = last) : runLength (· != last) (inner ++ rest) = inner.length :=
  runLength_append (fun _ member => bne_iff_ne.mpr fun same => free (same ▸ member))
    fun c first => by simpa using stops c first

/-- A text holds a character for the first time somewhere, or not at all. -/
theorem exists_upTo (last : Char) (cs : List Char) :
    ∃ inner rest, cs = inner ++ rest ∧ last ∉ inner ∧ ∀ c ∈ rest.head?, c = last := by
  obtain ⟨inner, rest, same, _, all, stops⟩ := exists_run (· != last) cs
  refine ⟨inner, rest, same, fun member => ?_, fun c first => ?_⟩
  · simpa using all last member
  · simpa using stops c first

/-- Without a star and a slash at the front, the end of a comment is looked for
behind the first character. -/
theorem commentLength?_cons {c : Char} {cs : List Char} (absent : ¬['*', '/'] <+: c :: cs) :
    commentLength? (c :: cs) = (commentLength? cs).map (· + 1) := by
  rw [commentLength?]
  rintro rest rfl rfl
  exact absent ⟨rest, rfl⟩

/-- A block comment ends at the first star and slash behind its opening. -/
theorem commentLength?_append {inner : List Char} (free : ¬['*', '/'] <:+: inner)
    (rest : List Char) :
    commentLength? (inner ++ '*' :: '/' :: rest) = some inner.length := by
  induction inner with
  | nil => rfl
  | cons c inner ih =>
    obtain ⟨absent, later⟩ := not_or.mp (mt List.infix_cons_iff.mpr free)
    -- A star before the end is followed by a character of the comment or by the star of the end.
    have front : ¬['*', '/'] <+: c :: (inner ++ '*' :: '/' :: rest) := by
      cases inner with
      | nil => simp
      | cons d inner => simpa using absent
    rw [List.cons_append, commentLength?_cons front, ih later]
    rfl

/-- Where no star and slash occur, no comment ends. -/
theorem commentLength?_of_free {cs : List Char} (free : ¬['*', '/'] <:+: cs) :
    commentLength? cs = none := by
  induction cs with
  | nil => rfl
  | cons c cs ih =>
    obtain ⟨absent, later⟩ := not_or.mp (mt List.infix_cons_iff.mpr free)
    rw [commentLength?_cons absent, ih later]
    rfl

/-- A text holds a star and a slash for the first time somewhere, or not at all. -/
theorem exists_commentEnd (cs : List Char) :
    ¬['*', '/'] <:+: cs ∨ ∃ inner rest, cs =
      inner ++ '*' :: '/' :: rest ∧ ¬['*', '/'] <:+: inner := by
  induction cs with
  | nil => exact .inl (by simp)
  | cons c cs ih =>
    -- The end stands right here or first in what follows; it cannot begin here without standing
    -- here.
    by_cases present : ['*', '/'] <+: c :: cs
    · obtain ⟨rest, same⟩ := present
      exact .inr ⟨[], rest, same.symm, by simp⟩
    · rcases ih with free | ⟨inner, rest, rfl, free⟩
      · exact .inl fun occurs => (List.infix_cons_iff.mp occurs).elim present free
      · refine .inr ⟨c :: inner, rest, rfl, fun occurs => ?_⟩
        rcases List.infix_cons_iff.mp occurs with front | later
        · exact present (front.trans (List.prefix_append (c :: inner) _))
        · exact free later

/-- Whether a string, a comment or a blank stands at the front of a text shows in
its first two characters. -/
theorem noPassage_iff {c : Char} {cs : List Char} :
    NoPassage (c :: cs) ↔
      c ∉ ['"', ' ', '\t', '\r', '\n'] ∧ (c = '/' → ∀ d ∈ cs.head?, d ≠ '/' ∧ d ≠ '*') := by
  constructor
  · intro none_
    -- Whatever opens a string or a comment is followed by the end of it, or by none.
    refine ⟨fun member => ?_, fun slash d first => ⟨fun again => ?_, fun star => ?_⟩⟩
    · simp only [List.mem_cons, List.not_mem_nil, or_false] at member
      rcases member with rfl | blank
      · obtain ⟨inner, rest, rfl, free, stops⟩ := exists_upTo '"' cs
        cases rest with
        | nil => exact none_ _ _ [] (.openText free) (by simp)
        | cons quote rest =>
          obtain rfl : quote = '"' := stops quote rfl
          exact none_ _ _ rest (.text free) (by simp)
      · exact none_ _ _ cs (.blank (by simpa using blank)) rfl
    · subst slash again
      obtain ⟨rest, rfl⟩ := List.head?_eq_some_iff.mp first
      obtain ⟨inner, behind, rfl, free, stops⟩ := exists_upTo '\n' rest
      exact none_ _ _ behind (.lineComment free stops) (by simp)
    · subst slash star
      obtain ⟨rest, rfl⟩ := List.head?_eq_some_iff.mp first
      rcases exists_commentEnd rest with free | ⟨inner, behind, rfl, free⟩
      · exact none_ _ _ [] (.openComment free) (by simp)
      · exact none_ _ _ behind (.blockComment free) (by simp)
  -- Conversely, every passage shows one of these beginnings.
  · rintro ⟨plain, alone⟩ cls chars rest is whole
    cases is with
    | text | openText =>
      obtain ⟨rfl, _⟩ := List.cons.inj whole
      simp at plain
    | lineComment | blockComment | openComment =>
      obtain ⟨rfl, rfl⟩ := List.cons.inj whole
      simpa using alone rfl _ rfl
    | blank member =>
      obtain ⟨rfl, _⟩ := List.cons.inj whole
      simp_all

end LoxLang
