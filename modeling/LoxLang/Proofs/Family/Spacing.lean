import LoxLang.Family.Description
import LoxLang.Proofs.Source.Lexemes

/-! The parts of a description as they stand in its text, with any spacing between them. -/

namespace LoxLang.Family

/-- Whether a text is a name: a letter, and letters and digits behind it. -/
def IsName (text : String) : Prop :=
  ∃ first more, text.toList = first :: more ∧ isAlpha first = true ∧ ∀ c ∈ more,
    isAlphanumeric c = true

namespace Lexeme

/-- A part as it is written. -/
def chars : Lexeme → List Char
  | name text => text.toList
  | colon => [':']
  | comma => [',']
  | opening => ['[']
  | closing => [']']
  | ellipsis => ['.', '.', '.']

/-- Whether a part can be written: its name is one, if it has one. -/
def Proper : Lexeme → Prop
  | name text => IsName text
  | colon | comma | opening | closing | ellipsis => True

/-- Whether a part ends where a given text follows: a name goes on as long as
letters and digits do. -/
def EndsBefore (rest : List Char) : Lexeme → Prop
  | name _ => ∀ c ∈ rest.head?, isAlphanumeric c = false
  | colon | comma | opening | closing | ellipsis => True

end Lexeme

/-- Whether a text is made of the given parts, with any number of spaces and tabs around each. -/
inductive Spaced : List Lexeme → List Char → Prop where
  | none : Spaced [] []
  | blank {c : Char} {parts : List Lexeme} {rest : List Char} :
    c = ' ' ∨ c = '\t' → Spaced parts rest → Spaced parts (c :: rest)
  | part (first : Lexeme) {parts : List Lexeme} {rest : List Char} :
    first.Proper → first.EndsBefore rest → Spaced parts rest →
      Spaced (first :: parts) (first.chars ++ rest)

/-- Only parts that can be written stand in a text. -/
theorem Spaced.proper {parts : List Lexeme} {cs : List Char} (spaced : Spaced parts cs) :
    ∀ part ∈ parts, part.Proper := by
  induction spaced with
  | none => simp
  | blank _ _ ih => exact ih
  | part _ proper _ _ ih => simpa [proper] using ih

/-- A letter stands for itself: it is no blank, and no other part begins with it. -/
theorem lexemes?_cons_of_isAlpha {c : Char} (alpha : isAlpha c = true) (cs : List Char) :
    lexemes? (c :: cs) =
      (lexemes? (cs.drop (runLength isAlphanumeric cs))).map
        (.name (String.ofList (c :: cs.take (runLength isAlphanumeric cs))) :: ·) := by
  -- Each of the characters that are asked for before is no letter.
  have other {d : Char} (plain : isAlpha d = false) : c ≠ d := by
    rintro rfl
    simp [alpha] at plain
  rw [lexemes?]
  · simp [alpha, @other ' ' rfl, @other '\t' rfl, @other ':' rfl, @other ',' rfl, @other '[' rfl,
      @other ']' rfl]
  · exact fun _ point => absurd point (other rfl)

/-- The parts of a text are found, whatever the spacing is. -/
theorem Spaced.lexemes?_eq {parts : List Lexeme} {cs : List Char} (spaced : Spaced parts cs) :
    lexemes? cs = some parts := by
  induction spaced with
  | none => simp [lexemes?]
  | blank is _ ih =>
    rcases is with rfl | rfl
    all_goals simpa [lexemes?] using ih
  | part first proper ends _ ih =>
    cases first with
    | name text =>
      -- The letters and digits behind the first letter are taken, and no more.
      obtain ⟨c, more, written, alpha, all⟩ := proper
      have run := runLength_append all ends
      rw [Lexeme.chars, written, List.cons_append, lexemes?_cons_of_isAlpha alpha, run,
        List.take_left, List.drop_left, ih, ← written]
      simp
    | colon | comma | opening | closing | ellipsis => simp [Lexeme.chars, lexemes?, ih]

/-- What is found stands in the text. -/
theorem spaced_of_lexemes? {parts : List Lexeme} {cs : List Char}
    (found : lexemes? cs = some parts) : Spaced parts cs := by
  -- A part that is taken off stands in front of those found behind it.
  have step (first : Lexeme) (proper : first.Proper) {rest : List Char}
      (ends : first.EndsBefore rest)
      (ih : ∀ {others : List Lexeme}, lexemes? rest = some others → Spaced others rest)
        {parts : List Lexeme}
      (found : (lexemes? rest).map (first :: ·) = some parts) :
        Spaced parts (first.chars ++ rest) := by
    obtain ⟨others, later, rfl⟩ := Option.map_eq_some_iff.mp found
    exact .part first proper ends (ih later)
  fun_induction lexemes? cs generalizing parts with
  | case1 =>
    obtain rfl : parts = [] := by simpa using found.symm
    exact .none
  | case2 rest ih => exact step .ellipsis trivial trivial ih found
  | case3 c cs _ is ih => exact .blank is (ih found)
  | case4 cs _ _ ih => exact step .colon trivial trivial ih found
  | case5 cs _ _ _ ih => exact step .comma trivial trivial ih found
  | case6 cs _ _ _ _ ih => exact step .opening trivial trivial ih found
  | case7 cs _ _ _ _ _ ih => exact step .closing trivial trivial ih found
  | case8 c cs _ _ _ _ _ _ alpha tail =>
    rename_i ih
    -- Behind a letter, the whole run of letters and digits is taken.
    obtain ⟨run, rest, rfl, length, all, stops⟩ := exists_run isAlphanumeric cs
    have taken : tail = run.length := length
    rw [taken, List.drop_left] at ih found
    rw [List.take_left] at found
    have spaced :=
      step (.name (String.ofList (c :: run))) ⟨c, run, by simp, alpha, all⟩ stops ih found
    simpa [Lexeme.chars] using spaced
  | case9 => cases found

/-- The parts of a description are found exactly if they stand in its text, with any
spacing between them. -/
theorem lexemes?_eq_some_iff {parts : List Lexeme} {cs : List Char} :
    lexemes? cs = some parts ↔ Spaced parts cs :=
  ⟨spaced_of_lexemes?, Spaced.lexemes?_eq⟩

end LoxLang.Family
