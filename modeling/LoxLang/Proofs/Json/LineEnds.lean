import LoxLang.Json.Writer
import LoxLang.Text.Lines

/-!
Written JSON has one spelling of line ends only, so that a file gives back the very text
it was given.
-/

namespace LoxLang

namespace Lines

/-- A text without the other spellings is left as it is. -/
theorem unify_of_not_mem {cs : List Char} (free : '\r' ∉ cs) : unify cs = cs := by
  -- Only the forms with a carriage return change anything.
  fun_induction unify cs with
  | case1 => rfl
  | case2 | case3 => simp at free
  | case4 c rest _ _ ih => rw [ih fun member => free (List.mem_cons_of_mem _ member)]

/-- The bytes of a text without the other spellings are decoded to that text. -/
theorem decode?_toUTF8 {text : String} (free : '\r' ∉ text.toList) :
    decode? text.toUTF8 = some text := by
  -- The bytes of a text are valid, so they are decoded; what is left is the line ends.
  have stored : String.fromUTF8? text.toUTF8 = some text := by
    rw [String.fromUTF8?, String.toUTF8_eq_toByteArray, dif_pos text.isValidUTF8]
    rfl
  rw [decode?, stored, Option.map_some, unify_of_not_mem free, String.ofList_toList]

end Lines

/-- Whether a character can stand in the text of a number, be it a letter of an exponent or of a
number without digits. -/
def Number.isNumeral (c : Char) : Bool :=
  c.isDigit || ['.', '+', '-', 'e', 'i', 'n', 'f', 'a'].contains c

section

variable {c : Char} (foreign : Number.isNumeral c = false)

include foreign

/-- A character that no number has is no digit. -/
theorem not_mem_toDigits (n : Nat) : c ∉ Nat.toDigits 10 n := by
  intro member
  have digit := Nat.isDigit_of_mem_toDigits (by decide) (by decide) member
  simp [Number.isNumeral, digit] at foreign

/-- A character that no number has is none of those that texts of numbers are put together with. -/
theorem Number.not_mem_numerals : c ∉ ['0', '.', '+', '-', 'e', 'i', 'n', 'f', 'a'] := by
  intro member
  simp only [List.mem_cons, List.not_mem_nil, or_false] at member
  rcases member with rfl | rfl | rfl | rfl | rfl | rfl | rfl | rfl | rfl <;> cases foreign

/-- A number laid out from digits has nothing but the characters of numbers. -/
theorem Decimal.Layout.not_mem_write (layout : Decimal.Layout) {digits : List Char}
    (free : c ∉ digits) (lead : Int) : c ∉ layout.write digits lead := by
  -- Apart from the digits there are only zeros, a point, a sign and a letter.
  have exponent := not_mem_toDigits foreign lead.natAbs
  have front (n : Nat) : c ∉ digits.take n := fun member => free (List.mem_of_mem_take member)
  have back (n : Nat) : c ∉ digits.drop n := fun member => free (List.mem_of_mem_drop member)
  have other := Number.not_mem_numerals foreign
  simp only [List.mem_cons, not_or] at other
  unfold write
  split
  · unfold positional zeros
    grind
  · unfold scientific signedExponent zeros
    grind

/-- The text of a number has nothing but the characters of numbers. -/
theorem Number.not_mem_chars (x : Float) : c ∉ Number.chars x := by
  -- The digits are those of a whole number, without the zeros at its end.
  have digits (d : Decimal.Scaled) : c ∉ d.digits.1 := by
    intro member
    simp only [Decimal.Scaled.digits, List.mem_reverse] at member
    exact not_mem_toDigits foreign _
      (List.mem_reverse.mp ((List.dropWhile_sublist _).subset member))
  have written (d : Decimal.Scaled) :=
    Decimal.Layout.not_mem_write foreign Number.layout (digits d) d.digits.2
  have other := Number.not_mem_numerals foreign
  simp only [List.mem_cons, not_or] at other
  have unsigned : c ∉ Number.unsignedText x := by
    unfold Number.unsignedText
    split
    · simp [other]
    · split
      · simp [other]
      · exact written _
  unfold Number.chars
  split
  · simp [other]
  · split
    · simp [other, unsigned]
    · exact unsigned

end

namespace Json

/-- A written character ends no line by itself. -/
theorem not_mem_writeChar (c : Char) : '\r' ∉ writeChar c := by
  have coded : ∀ n < 32, '\r' ∉ Quoted.hex 4 n := by decide
  unfold writeChar
  -- The line end itself is written as a letter behind a backslash, and other controls as digits.
  split
  next quoted => rcases quoted with rfl | rfl <;> decide
  split
  · decide
  split
  · decide
  split
  · decide
  split
  · decide
  split
  · decide
  split
  next control =>
    have small : c.toNat < 32 := control
    simpa using coded c.toNat small
  · simpa using Ne.symm ‹¬c = '\r'›

/-- A number in hexadecimal ends no line. -/
theorem not_mem_hex (width n : Nat) : '\r' ∉ Quoted.hex width n := by
  have digits : '\r' ∉ Nat.toDigits 16 n := by
    -- The last digit is that of the remainder, and the others are those of the quotient.
    induction n using Nat.strongRecOn with
    | ind n ih =>
      rw [Nat.toDigits_eq_if (by decide)]
      split
      case isTrue => simp
      case isFalse => simp [ih (n / 16) (by omega)]
  simp [Quoted.hex, digits]

/-- A written element of a string ends no line. -/
theorem not_mem_writeGlyph (glyph : Glyph) : '\r' ∉ writeGlyph glyph := by
  cases glyph with
  | char c => exact not_mem_writeChar c
  | half unit => simp [writeGlyph, Glyph.escape, not_mem_hex]

/-- A written string ends no line. -/
theorem not_mem_writeString (text : Text) : '\r' ∉ (writeString text).toList := by
  simp [writeString, not_mem_writeGlyph]

/-- A written number ends no line. -/
theorem not_mem_writeNumber (x : Float) : '\r' ∉ (writeNumber x).toList := by
  unfold writeNumber
  split
  · decide
  split
  · split <;> decide
  · simpa [Number.text] using Number.not_mem_chars (by decide) x

/-- A written whole number ends no line. -/
theorem not_mem_toString (i : Int) : '\r' ∉ (toString i).toList := by
  cases i with
  | ofNat n =>
    show '\r' ∉ n.repr.toList
    rw [Nat.toList_repr]
    exact not_mem_toDigits (by decide) n
  | negSucc n =>
    show '\r' ∉ ("-" ++ (n + 1).repr).toList
    rw [String.toList_append, Nat.toList_repr, List.mem_append]
    exact not_or.mpr ⟨by decide, not_mem_toDigits (by decide) (n + 1)⟩

/-- Parts that lack a character are joined to a text that lacks it, if what joins them does. -/
theorem not_mem_intercalate {c : Char} {joint : List Char} {parts : List (List Char)}
    (free : c ∉ joint) (each : ∀ part ∈ parts, c ∉ part) : c ∉ joint.intercalate parts := by
  match parts with
  | [] => simp
  | [part] => simpa using each part (by simp)
  | first :: second :: rest =>
    have further := not_mem_intercalate free fun part member =>
      each part (List.mem_cons_of_mem first member)
    simpa [List.intercalate_cons_cons, free, each first (by simp)] using further

/-- Parts that end no line are joined without another spelling of line ends. -/
theorem not_mem_enclose (opening closing : String) (level : Nat) {parts : List String}
    (front : '\r' ∉ opening.toList) (back : '\r' ∉ closing.toList)
    (each : ∀ part ∈ parts, '\r' ∉ part.toList) :
    '\r' ∉ (enclose opening closing level parts).toList := by
  -- The layout adds line feeds and spaces only.
  have indented (level : Nat) : '\r' ∉ (newline level).toList := by simp [newline]
  unfold enclose
  split
  · simp [front, back]
  · have joined : '\r' ∉ (("," ++ newline (level + 1)).intercalate parts).toList := by
      rw [String.toList_intercalate]
      refine not_mem_intercalate (by simp [indented]) fun part member => ?_
      obtain ⟨text, known, rfl⟩ := List.mem_map.mp member
      exact each text known
    simp only [String.toList_append, List.mem_append]
    simp only [front, back, indented, joined, or_false, not_false_eq_true]

mutual

/-- A written value has one spelling of line ends only. -/
theorem not_mem_writeAt (level : Nat) (value : Json) : '\r' ∉ (writeAt level value).toList := by
  -- The three theorems follow the three functions that write values, items and fields.
  cases value with
  | null =>
    rw [writeAt]
    decide
  | bool truth => cases truth <;> rw [writeAt] <;> decide
  | int i => exact not_mem_toString i
  | number x => exact not_mem_writeNumber x
  | string s => exact not_mem_writeString s
  | garbled text => exact not_mem_writeString (.garbled text)
  | array items =>
    rw [writeAt]
    exact not_mem_enclose _ _ _ (by decide) (by decide) (not_mem_writeItems (level + 1) items)
  | object fields =>
    rw [writeAt]
    exact not_mem_enclose _ _ _ (by decide) (by decide) (not_mem_writeFields (level + 1) fields)

/-- Written items have one spelling of line ends only. -/
theorem not_mem_writeItems (level : Nat) (items : List Json) :
    ∀ part ∈ writeItems level items, '\r' ∉ part.toList := by
  cases items with
  | nil => simp [writeItems]
  | cons item rest =>
    rw [writeItems, List.forall_mem_cons]
    exact ⟨not_mem_writeAt level item, not_mem_writeItems level rest⟩

/-- Written fields have one spelling of line ends only. -/
theorem not_mem_writeFields (level : Nat) (fields : List (Text × Json)) :
    ∀ part ∈ writeFields level fields, '\r' ∉ part.toList := by
  match fields with
  | [] => simp [writeFields]
  | (name, value) :: rest =>
    rw [writeFields, List.forall_mem_cons]
    refine ⟨?_, not_mem_writeFields level rest⟩
    simp [not_mem_writeString, not_mem_writeAt level value]

end

end Json

end LoxLang
