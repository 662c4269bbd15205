import LoxLang.Proofs.Source.Lexemes

/-!
Bracketed texts: words, and heads with items between parentheses; each is read in one way only.
-/

namespace LoxLang

/-- A text of words and parentheses: a word, or a head and items that stand between parentheses. -/
inductive Bracketed where
  | word (text : String)
  | node (head : String) (items : List Bracketed)

namespace Bracketed

mutual

/-- How a bracketed text is written, with one blank before each item. -/
def chars : Bracketed → List Char
  | word text => text.toList
  | node head items => '(' :: head.toList ++ (led ' ' items ++ [')'])

/-- How items are written one after the other, each led by a given character. -/
def led (lead : Char) : List Bracketed → List Char
  | [] => []
  | first :: rest => lead :: first.chars ++ led lead rest

end

/-- What stands between parentheses is more than nothing. -/
theorem chars_node_ne_nil (head : String) (items : List Bracketed) :
    (node head items).chars ≠ [] := by
  simp [chars]

/-- A bracketed text as a string. -/
def text (s : Bracketed) : String :=
  String.ofList s.chars

/-- The characters of a bracketed text as a string. -/
@[simp] theorem toList_text (s : Bracketed) : s.text.toList = s.chars :=
  String.toList_ofList

/-- A word is written as it is. -/
@[simp] theorem text_word (written : String) : (word written).text = written := by
  rw [text, chars, String.ofList_toList]

/-- Whether a character can stand in a word: it neither joins nor ends anything. -/
def isBare (c : Char) : Bool :=
  c ∉ [' ', '(', ')', '\n']

/-- Whether a text is one word. -/
def Bare (text : String) : Prop :=
  text.toList.all isBare = true

/-- The characters of a word are those of words. -/
theorem Bare.each {text : String} (bare : Bare text) : ∀ c ∈ text.toList, isBare c = true :=
  List.all_eq_true.mp bare

/-- Whether all heads and words of a bracketed text are words. -/
inductive Plain : Bracketed → Prop where
  | word {text : String} : Bare text → Plain (word text)
  | node {head : String} {items : List Bracketed} : Bare head → (∀ item ∈ items, Plain item) →
    Plain (node head items)

/-- Whether what follows a bracketed text cannot belong to it: nothing, a blank, a closing
parenthesis or a line end. -/
def Stops (rest : List Char) : Prop :=
  ∀ c ∈ rest.head?, c ∈ [' ', ')', '\n']

/-- Nothing that follows a bracketed text continues a word. -/
theorem Stops.not_bare {rest : List Char} (stops : Stops rest) :
    ∀ c ∈ rest.head?, isBare c = false := by
  intro c first
  have joint := stops c first
  simp only [List.mem_cons, List.not_mem_nil, or_false] at joint
  rcases joint with rfl | rfl | rfl <;> rfl

/-- Nothing that follows a bracketed text opens another one. -/
theorem Stops.ne_opening {rest more : List Char} (stops : Stops rest) : rest ≠ '(' :: more := by
  rintro rfl
  exact absurd (stops '(' rfl) (by decide)

/-- Whether a bracketed text and the rest of a longer one are determined by the longer one. -/
def Readable (s : Bracketed) : Prop :=
  ∀ ⦃t rest others⦄, t.Plain → Stops rest → Stops others → s.chars ++ rest = t.chars ++ others →
    s = t ∧ rest = others

/-- Items stop where another character than the one that leads them stands. -/
theorem stops_led {lead : Char} (joins : lead ∈ [' ', ')', '\n']) (items : List Bracketed)
    {rest : List Char} (stops : Stops rest) : Stops (led lead items ++ rest) := by
  cases items with
  | nil => exact stops
  | cons first more =>
    rintro c ⟨⟩
    exact joins

/-- Items are determined by what they are written as, along with what follows them. -/
theorem led_append_inj {lead : Char} (joins : lead ∈ [' ', ')', '\n'])
    {items others : List Bracketed} (readable : ∀ item ∈ items, item.Readable)
    (plain : ∀ item ∈ others, item.Plain) {rest more : List Char} (stops : Stops rest)
    (otherStops : Stops more) (ends : rest.head? ≠ some lead)
    (otherEnds : more.head? ≠ some lead)
    (same : led lead items ++ rest = led lead others ++ more) : items = others ∧ rest = more := by
  -- Both lists are read at once: as long as the leading character stands there,
  -- another item follows.
  induction items generalizing others with
  | nil =>
    cases others with
    | nil => exact ⟨rfl, same⟩
    | cons => exact absurd (congrArg List.head? same) ends
  | cons first items ih =>
    cases others with
    | nil => exact absurd (congrArg List.head? same).symm otherEnds
    | cons other others =>
      rw [List.forall_mem_cons] at readable plain
      simp only [led, List.cons_append, List.append_assoc, List.cons.injEq, true_and] at same
      -- The first items stop where the other items begin, so they are the same, and
      -- so is all that follows.
      obtain ⟨rfl, behind⟩ :=
        readable.1 plain.1 (stops_led joins items stops) (stops_led joins others otherStops) same
      obtain ⟨rfl, rfl⟩ := ih readable.2 plain.2 behind
      exact ⟨rfl, rfl⟩

/-- A word is determined by a longer text that it begins. -/
theorem readable_word {text : String} (bare : Bare text) : (word text).Readable := by
  intro t rest others plain stops otherStops same
  cases plain with
  | word otherBare =>
    obtain ⟨words, rests⟩ :=
      append_inj_of_stops bare.each otherBare.each stops.not_bare otherStops.not_bare same
    exact ⟨congrArg word (String.toList_injective words), rests⟩
  | node =>
    -- A word does not begin with a parenthesis, and neither does what follows one.
    rw [chars, chars] at same
    cases front : text.toList with
    | nil =>
      rw [front] at same
      exact absurd same stops.ne_opening
    | cons c more =>
      rw [front] at same
      obtain ⟨rfl, _⟩ := List.cons.inj same
      cases bare.each '(' (by simp [front])

/-- Unique readability: a bracketed text is determined by a longer text that it
begins, along with the rest. -/
theorem Plain.readable {s : Bracketed} (plain : s.Plain) : s.Readable := by
  -- The other text and both rests are arbitrary, so that the items can be read one after the other.
  induction plain with
  | word bare => exact readable_word bare
  | node bare items ih =>
    intro t rest others otherPlain stops otherStops same
    cases otherPlain with
    | word otherBare =>
      obtain ⟨clash, _⟩ := readable_word otherBare (.node bare items) otherStops stops same.symm
      cases clash
    | node otherBare otherItems =>
      simp only [chars, List.cons_append, List.append_assoc, List.cons.injEq, true_and,
        List.nil_append] at same
      have closing (rest : List Char) : Stops (')' :: rest) := by
        rintro c ⟨⟩
        decide
      -- The head ends where the items begin, and the items end at the closing parenthesis.
      obtain ⟨heads, behind⟩ :=
        append_inj_of_stops bare.each otherBare.each
          (stops_led (by decide) _ (closing rest)).not_bare
          (stops_led (by decide) _ (closing others)).not_bare same
      obtain ⟨rfl, closed⟩ :=
        led_append_inj (by decide) ih otherItems (closing rest) (closing others) (by simp)
          (by simp) behind
      exact ⟨by rw [String.toList_injective heads], (List.cons.inj closed).2⟩

/-- Lines are led by line ends, but for the first one. -/
theorem led_eq_intercalate (first : Bracketed) (rest : List Bracketed) :
    led '\n' (first :: rest) = '\n' :: ("\n".intercalate ((first :: rest).map text)).toList := by
  rw [String.toList_intercalate]
  induction rest generalizing first with
  | nil => simp [led]
  | cons second rest ih =>
    rw [led, ih second]
    simp

/-- Bracketed texts that are not empty are determined by the lines that they are written on. -/
theorem eq_of_lines {items others : List Bracketed}
    (plain : ∀ item ∈ items, item.Plain ∧ item.chars ≠ [])
    (otherPlain : ∀ item ∈ others, item.Plain ∧ item.chars ≠ [])
    (same : "\n".intercalate (items.map text) = "\n".intercalate (others.map text)) :
    items = others := by
  -- Without a line there is nothing at all, and with one there is something.
  have something {first : Bracketed} {rest : List Bracketed} (filled : first.chars ≠ []) :
      "\n".intercalate ((first :: rest).map text) ≠ "" := by
    intro empty
    have written := led_eq_intercalate first rest
    rw [empty, led] at written
    have nothing := (List.cons.inj written).2
    exact filled (List.append_eq_nil_iff.mp nothing).1
  have stops : Stops [] := by rintro c ⟨⟩
  cases items with
  | nil =>
    cases others with
    | nil => rfl
    | cons other others => exact absurd same.symm (something (otherPlain other (by simp)).2)
  | cons first rest =>
    cases others with
    | nil => exact absurd same (something (plain first (by simp)).2)
    | cons other others =>
      have led : led '\n' (first :: rest) ++ [] = led '\n' (other :: others) ++ [] := by
        rw [List.append_nil, List.append_nil, led_eq_intercalate, led_eq_intercalate, same]
      exact (led_append_inj (by decide) (fun item member => (plain item member).1.readable)
        (fun item member => (otherPlain item member).1) stops stops (by simp) (by simp) led).1

end Bracketed

end LoxLang
