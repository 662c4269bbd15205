import Mathlib.Data.List.TakeWhile
import LoxLang.Number
import LoxLang.Proofs.Decimal.Rounding

/-!
Texts of decimals read back: however the digits of a decimal are laid out, their text
stands for the decimal.
-/

namespace LoxLang.Decimal

/-- Whether a text is made of digits. -/
def AllDigits (text : List Char) : Prop :=
  ∀ c ∈ text, c.isDigit = true

/-- The exponent that a sign and digits stand for; where nothing stands, it is zero. -/
def exponentOf : List Char → Int
  | '-' :: digits => -(Number.ofDigits digits : Int)
  | '+' :: digits => Number.ofDigits digits
  | _ => 0

/-- The decimal that a text without a sign stands for. -/
def reading (text : List Char) : Scaled :=
  let mantissa := text.takeWhile (· != 'e')
  let whole := mantissa.takeWhile (· != '.')
  let fraction := (mantissa.dropWhile (· != '.')).drop 1
  { coefficient := Number.ofDigits (whole ++ fraction)
    exponent := exponentOf ((text.dropWhile (· != 'e')).drop 1) - fraction.length }

namespace AllDigits

variable {text : List Char}

/-- What is no digit does not occur among digits. -/
theorem not_mem (all : AllDigits text) {c : Char} (other : c.isDigit = false) : c ∉ text := by
  intro member
  rw [all c member] at other
  cases other

theorem append {more : List Char} (all : AllDigits text) (others : AllDigits more) :
    AllDigits (text ++ more) := by
  intro c member
  rcases List.mem_append.mp member with first | second
  · exact all c first
  · exact others c second

/-- Zeros are digits. -/
theorem zeros (count : Nat) : AllDigits (zeros count) := by
  intro c member
  rw [List.eq_of_mem_replicate member]
  rfl

/-- Digits are part of digits. -/
theorem mono {more : List Char} (all : AllDigits text) (part : more ⊆ text) : AllDigits more :=
  fun c member => all c (part member)

end AllDigits

/-- Zeros in front of digits change nothing. -/
theorem ofDigits_zeros_append (count : Nat) (digits : List Char) :
    Number.ofDigits (zeros count ++ digits) = Number.ofDigits digits := by
  change Nat.ofDigitChars 10 (zeros count ++ digits) 0 = _
  rw [Nat.ofDigitChars_append, zeros, Nat.ofDigitChars_replicate_zero, Nat.mul_zero]
  rfl

/-- Each zero behind digits multiplies by ten. -/
theorem ofDigits_append_zeros (digits : List Char) (count : Nat) :
    Number.ofDigits (digits ++ zeros count) = 10 ^ count * Number.ofDigits digits := by
  change Nat.ofDigitChars 10 (digits ++ zeros count) 0 = _
  rw [Nat.ofDigitChars_append, zeros, Nat.ofDigitChars_replicate_zero]
  rfl

/-- Up to a character that does not occur before, a text is taken whole. -/
theorem takeWhile_before {text : List Char} {mark : Char} (absent : mark ∉ text)
    (rest : List Char) :
    (text ++ mark :: rest).takeWhile (· != mark) = text ∧
      (text ++ mark :: rest).dropWhile (· != mark) = mark :: rest := by
  have passes : ∀ c ∈ text, (c != mark) = true := by
    intro c member
    simpa using fun same : c = mark => absent (same ▸ member)
  constructor
  · rw [List.takeWhile_append_of_pos passes]
    simp
  · rw [List.dropWhile_append_of_pos passes]
    simp

/-- Without such a character, a text is taken whole. -/
theorem takeWhile_without {text : List Char} {mark : Char} (absent : mark ∉ text) :
    text.takeWhile (· != mark) = text ∧ text.dropWhile (· != mark) = [] := by
  have passes : ∀ c ∈ text, (c != mark) = true := by
    intro c member
    simpa using fun same : c = mark => absent (same ▸ member)
  exact ⟨List.takeWhile_eq_self_iff.mpr passes, List.dropWhile_eq_nil_iff.mpr passes⟩

/-- Digits alone stand for the number they write. -/
theorem value_reading_whole {whole : List Char} (digits : AllDigits whole) :
    (reading whole).value = Number.ofDigits whole := by
  have point := takeWhile_without (digits.not_mem (c := '.') rfl)
  have mark := takeWhile_without (digits.not_mem (c := 'e') rfl)
  simp [reading, Scaled.value, point, mark, exponentOf]

/-- Digits around a point stand for the number they write, divided by ten for each
digit behind the point. -/
theorem value_reading_point {whole fraction : List Char} (before : AllDigits whole)
    (behind : AllDigits fraction) :
    (reading (whole ++ '.' :: fraction)).value =
      Number.ofDigits (whole ++ fraction) * 10 ^ (-fraction.length : ℤ) := by
  have point := takeWhile_before (before.not_mem (c := '.') rfl) fraction
  have unmarked : 'e' ∉ whole ++ '.' :: fraction := by
    simp [before.not_mem (c := 'e') rfl, behind.not_mem (c := 'e') rfl]
  have mark := takeWhile_without unmarked
  simp [reading, Scaled.value, point, mark, exponentOf]

/-- An exponent behind a text multiplies by its power of ten. -/
theorem value_reading_exponent {mantissa : List Char} (unmarked : 'e' ∉ mantissa)
    (exponent : List Char) :
    (reading (mantissa ++ 'e' :: exponent)).value =
      (reading mantissa).value * 10 ^ exponentOf exponent := by
  have mark := takeWhile_before unmarked exponent
  have without := takeWhile_without unmarked
  simp only [reading, Scaled.value, mark, without, List.drop_succ_cons, List.drop_zero,
    List.drop_nil, exponentOf]
  rw [mul_assoc, ← zpow_add₀ (by norm_num)]
  congr 2
  ring

/-- What is written as an exponent is read as it. -/
theorem exponentOf_signedExponent (width : Nat) (exponent : Int) :
    exponentOf (signedExponent width exponent) = exponent := by
  -- Zeros that fill up change nothing.
  have digits :
      Number.ofDigits (zeros (width - (Nat.toDigits 10 exponent.natAbs).length) ++
      Nat.toDigits 10 exponent.natAbs) =
      exponent.natAbs := by
    rw [ofDigits_zeros_append]
    exact Nat.ofDigitChars_ten_toDigits
  unfold signedExponent
  split
  · simp only [exponentOf, List.cons_append, digits]
    omega
  · simp only [exponentOf, List.cons_append, digits]
    omega

/-- The number that digits stand for, the leading one at ten to the `lead`. -/
def ledBy (digits : List Char) (lead : Int) : ℚ :=
  Number.ofDigits digits * 10 ^ (lead + 1 - digits.length)

/-- The digits of a decimal stand for it; there are some unless it is zero. -/
theorem ledBy_digits (d : Scaled) :
    AllDigits d.digits.1 ∧ ledBy d.digits.1 d.digits.2 = d.value ∧
      (d.coefficient ≠ 0 → d.digits.1 ≠ []) := by
  -- What is taken off the end of the written digits is a number of zeros.
  obtain ⟨count, written⟩ : ∃ count, Nat.toDigits 10 d.coefficient = d.digits.1 ++ zeros count := by
    refine ⟨((Nat.toDigits 10 d.coefficient).reverse.takeWhile (· == '0')).length, ?_⟩
    have ending : (Nat.toDigits 10 d.coefficient).reverse.takeWhile (· == '0') =
        zeros ((Nat.toDigits 10 d.coefficient).reverse.takeWhile (· == '0')).length := by
      rw [zeros, List.eq_replicate_iff]
      exact ⟨rfl, fun c member => by simpa using List.mem_takeWhile_imp member⟩
    apply List.reverse_injective
    rw [List.reverse_append, zeros, List.reverse_replicate, ← zeros, ← ending, Scaled.digits,
      List.reverse_reverse, List.takeWhile_append_dropWhile]
  have value : 10 ^ count * Number.ofDigits d.digits.1 = d.coefficient := by
    rw [← ofDigits_append_zeros, ← written]
    exact Nat.ofDigitChars_ten_toDigits
  have all : AllDigits (Nat.toDigits 10 d.coefficient) :=
    fun c member => Nat.isDigit_of_mem_toDigits (by decide) (by decide) member
  refine ⟨all.mono (by simp [written]), ?_, ?_⟩
  · have some : 0 < (Nat.toDigits 10 d.coefficient).length :=
      List.length_pos_iff.mpr Nat.toDigits_ne_nil
    have length : (Nat.toDigits 10 d.coefficient).length = d.digits.1.length + count := by
      rw [written, List.length_append, zeros, List.length_replicate]
    have lead : d.digits.2 = d.exponent + ((Nat.toDigits 10 d.coefficient).length - 1 : ℕ) := rfl
    have power : d.digits.2 + 1 - d.digits.1.length = count + d.exponent := by omega
    rw [ledBy, power, zpow_add₀ (by norm_num), zpow_natCast, Scaled.value, ← value]
    push_cast
    ring
  · intro nonzero empty
    rw [empty] at value
    exact nonzero value.symm

section

variable {digits : List Char} (all : AllDigits digits) (filled : digits ≠ [])

include all filled

/-- Written positionally, digits are digits around a point, which stand for the same number. -/
theorem positional_eq (lead : Int) :
    ∃ whole fraction, positional digits lead = whole ++ '.' :: fraction ∧ whole ≠ [] ∧
      AllDigits whole ∧ AllDigits fraction ∧
      (Number.ofDigits (whole ++ fraction) : ℚ) * 10 ^ (-fraction.length : ℤ) =
        ledBy digits lead := by
  unfold positional
  split
  case isTrue small =>
    -- Below one, zeros stand between the point and the digits.
    refine ⟨['0'], zeros (-lead - 1).toNat ++ digits,
      rfl, by simp, AllDigits.zeros 1, (AllDigits.zeros _).append all, ?_⟩
    have value := ofDigits_zeros_append ((-lead - 1).toNat + 1) digits
    rw [zeros, List.replicate_succ] at value
    have length : -((zeros (-lead - 1).toNat ++ digits).length : ℤ) = lead + 1 - digits.length := by
      simp only [zeros, List.length_append, List.length_replicate]
      omega
    rw [length, ledBy]
    exact congrArg (fun n : ℕ => (n : ℚ) * _) value
  case isFalse large =>
    dsimp only
    split
    case isTrue short =>
      -- Zeros fill up the place before the point.
      refine ⟨digits ++ zeros (lead.toNat + 1 - digits.length),
        ['0'], by simp, by simp [filled], all.append (AllDigits.zeros _), AllDigits.zeros 1, ?_⟩
      have value := ofDigits_append_zeros digits (lead.toNat + 1 - digits.length + 1)
      rw [zeros, List.replicate_succ', ← List.append_assoc] at value
      have power : (lead + 1 - digits.length : ℤ) =
          (lead.toNat + 1 - digits.length + 1 : ℕ) + (-1) := by omega
      rw [ledBy, power, zpow_add₀ (by norm_num), zpow_natCast]
      have cast := congrArg (fun n : ℕ => (n : ℚ)) value
      push_cast at cast
      rw [zeros, cast]
      simp
      ring
    case isFalse long =>
      -- The point stands between two of the digits.
      refine ⟨digits.take (lead.toNat + 1), digits.drop (lead.toNat + 1), rfl, by simp [filled],
        all.mono (List.take_subset _ _), all.mono (List.drop_subset _ _), ?_⟩
      have length : -((digits.drop (lead.toNat + 1)).length : ℤ) = lead + 1 - digits.length := by
        rw [List.length_drop]
        omega
      rw [List.take_append_drop, length, ledBy]

/-- The digits before an exponent are digits, with or without a point, and stand for
a number led by ones. -/
theorem mantissa_eq :
    ∃ first mantissa, digits.take 1 ++ (if digits.length ≤ 1 then [] else '.' :: digits.drop 1) =
      first :: mantissa ∧
      first.isDigit = true ∧ 'e' ∉ first :: mantissa ∧
        (reading (first :: mantissa)).value = ledBy digits 0 := by
  obtain ⟨first, rest, rfl⟩ := List.exists_cons_of_ne_nil filled
  have leading : AllDigits [first] := all.mono (by simp)
  have others : AllDigits rest := all.mono (by simp)
  have unmarked := all.not_mem (c := 'e') rfl
  refine ⟨first, if (first :: rest).length ≤ 1 then []
    else '.' :: rest, by simp, all first (by simp), ?_⟩
  -- A point is written only if there are digits to stand behind it.
  by_cases single : rest = []
  · subst single
    rw [if_pos (by simp)]
    exact ⟨unmarked, by simp [value_reading_whole leading, ledBy]⟩
  · have longer : ¬(first :: rest).length ≤ 1 := by
      have := List.length_pos_iff.mpr single
      simp only [List.length_cons]
      omega
    rw [if_neg longer]
    refine ⟨by simpa using unmarked, ?_⟩
    have value := value_reading_point leading others
    rw [List.singleton_append, List.singleton_append] at value
    -- Each digit behind the point lowers the exponent of the last digit by one.
    have length : (0 + 1 - (first :: rest).length : ℤ) = -rest.length := by
      simp only [List.length_cons]
      omega
    rw [value, ledBy, length]

end

/-- What is written as an exponent has a sign and at least one digit, and no point. -/
theorem unpointed_signedExponent (width : Nat) (exponent : Int) :
    '.' ∉ signedExponent width exponent ∧ 1 < (signedExponent width exponent).length := by
  have digits :
      AllDigits (zeros (width - (Nat.toDigits 10 exponent.natAbs).length) ++
      Nat.toDigits 10 exponent.natAbs) :=
    (AllDigits.zeros _).append fun c member =>
      Nat.isDigit_of_mem_toDigits (by decide) (by decide) member
  have some : 0 < (Nat.toDigits 10 exponent.natAbs).length :=
    List.length_pos_iff.mpr Nat.toDigits_ne_nil
  rw [signedExponent, List.cons_append, List.mem_cons, not_or, List.length_cons, List.length_append]
  refine ⟨⟨?_, digits.not_mem rfl⟩, by omega⟩
  split
  · decide
  · decide

/-- A final point and zero are dropped. -/
theorem dropWhole_whole (text : List Char) : Number.dropWhole (text ++ ['.', '0']) = text := by
  simp [Number.dropWhole]

/-- A text that ends otherwise stays as it is. -/
theorem dropWhole_other {text : List Char} (other : ∀ before, text.reverse ≠ '0' :: '.' :: before) :
    Number.dropWhole text = text := by
  unfold Number.dropWhole
  split
  next before same => exact absurd same (other before)
  next => rfl

/-- What is written with an exponent stays as it is. -/
theorem dropWhole_scientific (width : Nat) (digits : List Char) (lead : Int) :
    Number.dropWhole (scientific width digits lead) = scientific width digits lead := by
  -- The last two characters belong to the exponent, where there is no point.
  obtain ⟨unpointed, long⟩ := unpointed_signedExponent width lead
  apply dropWhole_other
  intro before back
  rw [scientific, List.reverse_append, List.reverse_cons, List.append_assoc] at back
  have second : (signedExponent width lead).reverse[1]? = some '.' := by
    rw [← List.getElem?_append_left (by simpa using long), back]
    rfl
  exact unpointed (List.mem_reverse.mp (List.mem_of_getElem? second))

/-- Without a final point and zero, digits around a point begin with a digit and
stand for the same number. -/
theorem reading_dropWhole_point {whole fraction : List Char} (filled : whole ≠ [])
    (before : AllDigits whole) (behind : AllDigits fraction) :
    (∃ first rest, Number.dropWhole (whole ++ '.' :: fraction) = first :: rest ∧
      first.isDigit = true) ∧
      (reading (Number.dropWhole (whole ++ '.' :: fraction))).value =
        Number.ofDigits (whole ++ fraction) * 10 ^ (-fraction.length : ℤ) := by
  obtain ⟨first, rest, rfl⟩ := List.exists_cons_of_ne_nil filled
  by_cases zero : fraction = ['0']
  · -- The digits before the point are left, and the zero has divided by ten what it had multiplied.
    subst zero
    rw [dropWhole_whole, value_reading_whole before]
    refine ⟨⟨first, rest, rfl, before first (by simp)⟩, ?_⟩
    have value := ofDigits_append_zeros (first :: rest) 1
    rw [zeros, List.replicate_one] at value
    rw [value]
    simp
    ring
  · rw [dropWhole_other, value_reading_point before behind]
    · exact ⟨⟨first, rest ++ '.' :: fraction, rfl, before first (by simp)⟩, rfl⟩
    · -- The last point is the one in front of the fraction, so only a zero behind
      -- it would be dropped.
      intro others same
      rw [List.reverse_append, List.reverse_cons, List.append_assoc, List.singleton_append] at same
      have unpointed : '.' ∉ fraction.reverse := by simpa using behind.not_mem (c := '.') rfl
      have back := (takeWhile_before unpointed (first :: rest).reverse).1
      rw [same] at back
      have reversed : fraction.reverse = ['0'] := by simpa using back.symm
      exact zero (by simpa using congrArg List.reverse reversed)

/--
The text of a number, without a final point and zero, stands for the number that is written.

It begins with a digit.
-/
theorem reading_dropWhole_write (layout : Layout) {digits : List Char} (all : AllDigits digits)
    (filled : digits ≠ []) (lead : Int) :
    (∃ first rest, Number.dropWhole (layout.write digits lead) = first :: rest ∧
      first.isDigit = true) ∧
      (reading (Number.dropWhole (layout.write digits lead))).value = ledBy digits lead := by
  unfold Layout.write
  split
  case isTrue =>
    obtain ⟨whole, fraction, same, some, before, behind, value⟩ := positional_eq all filled lead
    have dropped := reading_dropWhole_point some before behind
    rw [same]
    exact ⟨dropped.1, dropped.2.trans value⟩
  -- Behind an exponent nothing is dropped, and the exponent that is read is the one written.
  case isFalse =>
    obtain ⟨first, mantissa, same, digit, unmarked, value⟩ := mantissa_eq all filled
    have text : scientific layout.exponentWidth digits lead =
        first :: mantissa ++ 'e' :: signedExponent layout.exponentWidth lead := by
      rw [scientific, ← same]
    rw [dropWhole_scientific, text]
    refine ⟨⟨first, mantissa ++ 'e' :: signedExponent layout.exponentWidth lead, rfl, digit⟩, ?_⟩
    rw [value_reading_exponent unmarked, value, exponentOf_signedExponent, ledBy, ledBy, mul_assoc,
      ← zpow_add₀ (by norm_num)]
    congr 2
    ring

end LoxLang.Decimal
