import LoxLang.Proofs.Value.Display

/-!
Numbers as they are written: a numeral never denotes an undefined number, and no two
numbers have the same full text.
-/

namespace LoxLang.Number

open Decimal Float.Model Float.Model.UnpackedFloat

/-- Fields make up a defined number, unless a mantissa stands beside the highest exponent. -/
theorem isNaN_unpack_packComponents {sign : Sign} {exponent : BitVec 11} {mantissa : BitVec 52}
    (lawful : exponent = -1#11 → mantissa = 0#52) :
    (UnpackedFloat.unpack .binary64 (packComponents .binary64 sign exponent mantissa)).isNaN =
      false := by
  have apart := takenApart_unpack (packComponents .binary64 sign exponent mantissa)
  generalize UnpackedFloat.unpack .binary64 (packComponents .binary64 sign exponent mantissa) =
    taken at apart ⊢
  cases apart with
  | notANumber highest something =>
    rw [unpackExponent_packComponents] at highest
    rw [unpackMantissa_packComponents] at something
    exact absurd (lawful highest) something
  | infinity | zero | subnormal | normal => rfl

/-- A number that is defined stays so when it is put together from its parts. -/
theorem isNaN_unpack_pack {form : UnpackedFloat} (defined : form.isNaN = false) :
    (UnpackedFloat.unpack .binary64 (form.pack .binary64)).isNaN = false := by
  cases form with
  | notANumber => cases defined
  | infinity | zero => exact isNaN_unpack_packComponents fun _ => rfl
  | finite sign mantissa exponent positive =>
    delta UnpackedFloat.pack
    dsimp only
    split
    case isTrue => exact isNaN_unpack_packComponents fun _ => rfl
    case isFalse below =>
      split
      case isTrue =>
        -- The exponent is below the highest one, as larger sizes are infinite.
        refine isNaN_unpack_packComponents fun highest => ?_
        have width : (2 : Nat) ^ Format.binary64.exponentBits = 2048 := rfl
        have biased := congrArg BitVec.toNat highest
        rw [BitVec.toNat_ofNat] at biased
        change _ % 2048 = 2047 at biased
        rw [width] at below
        omega
      case isFalse =>
        refine isNaN_unpack_packComponents fun highest => ?_
        cases highest

/-- Rounding gives a defined number. -/
theorem isNaN_roundWithAccuracy (format : Format) (sign : Sign) (mantissa : Nat) (exponent : Int)
    (accuracy : Accuracy) :
    (roundWithAccuracy format sign mantissa exponent accuracy).isNaN = false := by
  -- The outcome is a zero or a size, whatever the mantissa is rounded to.
  delta roundWithAccuracy
  dsimp only
  rw [apply_dite UnpackedFloat.isNaN]
  exact ite_self false

/-- Whole numbers are defined. -/
theorem isNaN_toFloat (n : UInt64) : n.toFloat.isNaN = false := by
  change (UnpackedFloat.unpack .binary64
    ((UnpackedFloat.ofUInt64 .binary64 n).pack .binary64)).isNaN = false
  apply isNaN_unpack_pack
  change (UnpackedFloat.normalize .binary64 n.toNat 0 .positive).isNaN = false
  rw [UnpackedFloat.normalize]
  split
  · exact isNaN_roundWithAccuracy ..
  · rfl
  · exact isNaN_roundWithAccuracy ..

/-- Whether a number taken apart is neither zero nor infinite nor undefined. -/
def isSized : UnpackedFloat → Bool
  | .finite .. => true
  | .zero _ | .infinity _ | .notANumber => false

/-- A defined number stays so when it is multiplied or divided by a number of some size. -/
theorem isNaN_mul_div {form size : UnpackedFloat} (defined : form.isNaN = false)
    (sized : isSized size = true) :
    (form.mul .binary64 size).isNaN = false ∧ (form.div .binary64 size).isNaN = false := by
  cases size with
  | finite =>
    cases form with
    | notANumber => cases defined
    | infinity | zero => exact ⟨rfl, rfl⟩
    | finite => exact ⟨isNaN_roundWithAccuracy .., isNaN_roundWithAccuracy ..⟩
  | notANumber | infinity | zero => cases sized

/-- A choice between defined numbers is defined. -/
theorem isNaN_ite {p : Prop} [Decidable p] {a b : UnpackedFloat} (defined : a.isNaN = false)
    (otherDefined : b.isNaN = false) : (if p then a else b).isNaN = false := by
  rw [apply_ite UnpackedFloat.isNaN, defined, otherDefined, ite_self]

/-- A coefficient and a power of ten denote a defined number. -/
theorem isNaN_unpacked_ofScientific (coefficient : Nat) (exponent : Int) :
    (UnpackedFloat.ofScientific .binary64 coefficient exponent).isNaN = false := by
  rw [UnpackedFloat.ofScientific]
  by_cases nothing : coefficient = 0
  · rw [dif_pos nothing]
    rfl
  · rw [dif_neg nothing]
    -- Far too large and far too small sizes are found without rounding.
    have scaled := isNaN_roundWithAccuracy .binary64 .positive
    exact isNaN_ite rfl (isNaN_ite rfl (isNaN_ite (scaled ..) (scaled ..)))

/-- A coefficient and a power of ten denote a defined number, also where the number
is found by a shorter way. -/
theorem isNaN_ofScientific (coefficient : Nat) (negative : Bool) (exponent : Nat) :
    (Float.ofScientific coefficient negative exponent).isNaN = false := by
  rw [Float.ofScientific]
  split
  case isTrue small =>
    -- The powers of ten that are looked up are all of some size.
    have powers : ∀ n : Fin 23, isSized (Float.exactlyRepresentablePowersOfTen[n]).toModel.unpack =
        true := by decide
    have both := isNaN_mul_div (isNaN_toFloat coefficient.toUInt64) (powers ⟨exponent, by omega⟩)
    simp only []
    split
    · exact isNaN_unpack_pack both.2
    · exact isNaN_unpack_pack both.1
  case isFalse => exact isNaN_unpack_pack (isNaN_unpacked_ofScientific ..)

/-- No two numbers have the same full text. -/
theorem text_injective : Function.Injective text := by
  -- What is shown of a number is made from its full text.
  intro x y same
  apply display_injective
  rw [display, display, String.ofList_inj.mp same]

/-- A text begins as it does without its final point and zero. -/
theorem dropWhole_prefix (written : List Char) : dropWhole written <+: written := by
  by_cases whole : ∃ before, written.reverse = '0' :: '.' :: before
  · obtain ⟨before, ending⟩ := whole
    obtain rfl : written = before.reverse ++ ['.', '0'] := by
      rw [← List.reverse_inj, ending]
      simp
    rw [dropWhole_whole]
    exact List.prefix_append ..
  · exact ⟨[], by rw [List.append_nil, dropWhole_other (not_exists.mp whole)]⟩

/-- The full text of a number begins with a sign or a digit, if the number is defined and finite. -/
theorem head_chars {x : Float} (defined : x.isNaN = false) (finite : x.isInf = false) :
    ∃ first rest, chars x = first :: rest ∧ (first = '-' ∨ first.isDigit = true) := by
  rw [chars, defined, if_neg Bool.false_ne_true]
  split
  · exact ⟨_, _, rfl, .inl rfl⟩
  · -- The size begins as what is shown of it.
    obtain ⟨rest, whole⟩ := dropWhole_prefix (unsignedText x)
    rw [← shownSize] at whole
    rw [← whole]
    rcases shownSize_cases x with ⟨infinite, _⟩ | ⟨_, zero⟩ | ⟨⟨first, more, shown, digit⟩, _⟩
    · cases finite.symm.trans infinite
    · exact ⟨'0', rest, by rw [zero]; rfl, .inr rfl⟩
    · exact ⟨first, more ++ rest, by rw [shown]; rfl, .inr digit⟩

end LoxLang.Number
