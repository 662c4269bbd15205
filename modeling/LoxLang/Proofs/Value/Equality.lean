import Mathlib.Algebra.Group.Nat.Defs
import LoxLang.Value

/-!
Equality of values is identity, the signs of undefined numbers apart.

Numbers are equal if both are undefined, or if they compare equal and have the same sign.
The value of a number is determined by that.
-/

namespace LoxLang

namespace Number

open Float.Model Float.Model.UnpackedFloat

/-- The sign of a number taken apart, unless it is undefined. -/
def signOf? : UnpackedFloat → Option Sign
  | .infinity sign | .zero sign | .finite sign .. => some sign
  | .notANumber => none

/-- Whatever is defined compares equal to itself. -/
theorem compare_self {a : UnpackedFloat} (defined : a.isNaN = false) : a.compare a = some .eq := by
  -- Nothing undefined compares to anything, itself included.
  cases a with
  | infinity sign => cases sign <;> rfl
  | notANumber => cases defined
  | zero sign => rfl
  | finite sign mantissa exponent positive =>
    have both : (compare exponent exponent).then (compare mantissa mantissa) = .eq := by simp
    cases sign with
    | positive => exact congrArg some both
    | negative => exact congrArg (fun order => some order.swap) both

/-- Signed sizes compare equal if they are the same. -/
theorem eq_of_compare_finite {sign : Sign} {mantissa other : Nat} {exponent otherExponent : Int}
    {positive : 0 < mantissa} {otherPositive : 0 < other}
    (same : (finite sign mantissa exponent positive).compare
      (finite sign other otherExponent otherPositive) = some .eq) :
    exponent = otherExponent ∧ mantissa = other := by
  -- Exponents are compared first, and mantissas only if these agree.
  cases sign <;> simpa [Ordering.then_eq_eq] using Option.some.inj same

/-- What compares equal and has the same sign is the same; without the sign, the two
zeros would be too. -/
theorem eq_of_compare {a b : UnpackedFloat} (same : a.compare b = some .eq)
    (signs : signOf? a = signOf? b) : a = b := by
  -- Unless both are of one form, one of them is the greater; zeros are the form in which
  -- the sign is not compared.
  cases a with
  | notANumber => cases same
  | infinity sign =>
    cases b with
    | infinity other => exact congrArg infinity (Option.some.inj signs)
    | notANumber => cases same
    | zero | finite => cases sign <;> cases same
  | zero sign =>
    cases b with
    | zero other => exact congrArg zero (Option.some.inj signs)
    | notANumber => cases same
    | infinity other | finite other => cases other <;> cases same
  | finite sign mantissa exponent =>
    cases b with
    | finite other =>
      obtain rfl : sign = other := Option.some.inj signs
      obtain ⟨rfl, rfl⟩ := eq_of_compare_finite same
      rfl
    | notANumber => cases same
    | zero => cases sign <;> cases same
    | infinity other => cases other <;> cases same

/-- The three fields of the bits of a number, read as numbers. -/
theorem toNat_fields (bits : BitVec Format.binary64.numBits) :
    (unpackSign bits).toNat = bits.toNat / 2 ^ 63 % 2 ∧
      (unpackExponent bits).toNat = bits.toNat / 2 ^ 52 % 2 ^ 11 ∧
      (unpackMantissa bits).toNat = bits.toNat % 2 ^ 52 := by
  change (bits.extractLsb 63 63).toNat = _ ∧ (bits.extractLsb 62 52).toNat = _ ∧
    (bits.extractLsb 51 0).toNat = _
  simp [BitVec.extractLsb_toNat, Nat.shiftRight_eq_div_pow]

/-- Bits are the same if their fields are. -/
theorem eq_of_fields {bits others : BitVec Format.binary64.numBits}
    (sign : unpackSign bits = unpackSign others)
    (exponent : unpackExponent bits = unpackExponent others)
    (mantissa : unpackMantissa bits = unpackMantissa others) : bits = others := by
  -- The fields lie side by side and leave no bit out.
  obtain ⟨signs, exponents, mantissas⟩ := toNat_fields bits
  obtain ⟨otherSigns, otherExponents, otherMantissas⟩ := toNat_fields others
  rw [sign, otherSigns] at signs
  rw [exponent, otherExponents] at exponents
  rw [mantissa, otherMantissas] at mantissas
  have bound : bits.toNat < 2 ^ 64 := bits.isLt
  have otherBound : others.toNat < 2 ^ 64 := others.isLt
  apply BitVec.eq_of_toNat_eq
  omega

/-- A leading one stands in front of a mantissa. -/
theorem toNat_leadingOne (mantissa : BitVec 52) :
    (1#1 ++ mantissa).toNat = 2 ^ 52 + mantissa.toNat := by
  rw [BitVec.toNat_append, Nat.shiftLeft_eq, Nat.mul_comm,
    ← Nat.two_pow_add_eq_or_of_lt mantissa.isLt]
  rfl

/-- The two fields that the size of a number taken apart is stored in: its exponent
and its mantissa. -/
def fieldsOf : UnpackedFloat → Int × Nat
  | .infinity _ | .notANumber => (2047, 0)
  | .zero _ => (0, 0)
  -- The leading one of a mantissa is not stored, unless the exponent is the lowest.
  | .finite _ mantissa exponent _ =>
    if mantissa < 2 ^ 52 then (0, mantissa) else (exponent + 1075, mantissa - 2 ^ 52)

/-- The fields of a size depend on whether its mantissa has a leading one. -/
theorem fieldsOf_finite (sign : Sign) {mantissa : Nat} (exponent : Int) (positive : 0 < mantissa) :
    fieldsOf (.finite sign mantissa exponent positive) =
      if mantissa < 2 ^ 52 then (0, mantissa) else (exponent + 1075, mantissa - 2 ^ 52) :=
  rfl

/-- What bits are taken apart into: the exponent decides, and at its two ends the mantissa does. -/
inductive TakenApart (bits : BitVec Format.binary64.numBits) : UnpackedFloat → Prop where
  | infinity : unpackExponent bits = -1#_ → unpackMantissa bits = 0#_ →
    TakenApart bits (.infinity (Sign.ofBitVec (unpackSign bits)))
  | notANumber : unpackExponent bits = -1#_ → unpackMantissa bits ≠ 0#_ →
    TakenApart bits .notANumber
  | zero : unpackExponent bits = 0#_ → unpackMantissa bits = 0#_ →
    TakenApart bits (.zero (Sign.ofBitVec (unpackSign bits)))
  | subnormal {mantissa : Nat} {exponent : Int} (positive : 0 < mantissa) :
    unpackExponent bits = 0#_ →
    mantissa = (unpackMantissa bits).toNat → exponent = -1074 →
    TakenApart bits (.finite (Sign.ofBitVec (unpackSign bits)) mantissa exponent positive)
  -- The leading one of the mantissa is not stored.
  | normal {mantissa : Nat} {exponent : Int} (positive : 0 < mantissa) : unpackExponent bits ≠ 0#_ →
    mantissa = 2 ^ 52 + (unpackMantissa bits).toNat →
      exponent = (unpackExponent bits).toNat - 1075 →
    TakenApart bits (.finite (Sign.ofBitVec (unpackSign bits)) mantissa exponent positive)

/-- Taking bits apart gives one of these forms. -/
theorem takenApart_unpack (bits : BitVec Format.binary64.numBits) :
    TakenApart bits (UnpackedFloat.unpack .binary64 bits) := by
  delta UnpackedFloat.unpack
  dsimp only
  -- The highest exponent is kept for what is not finite, the lowest for zero and subnormals.
  by_cases highest : unpackExponent bits = -1#_
  · rw [if_pos highest]
    by_cases nothing : unpackMantissa bits = 0#_
    · rw [if_pos nothing]
      exact .infinity highest nothing
    · rw [if_neg nothing]
      exact .notANumber highest nothing
  · rw [if_neg highest]
    by_cases lowest : unpackExponent bits = 0#_
    · rw [if_pos lowest]
      by_cases nothing : unpackMantissa bits = 0#_
      · rw [dif_pos nothing]
        exact .zero lowest nothing
      · rw [dif_neg nothing]
        exact .subnormal _ lowest rfl (by rw [lowest]; rfl)
    · rw [if_neg lowest]
      exact .normal _ lowest (toNat_leadingOne _) rfl

/-- A number that is defined shows the fields of its bits. -/
theorem fields_unpack {bits : BitVec Format.binary64.numBits}
    (defined : (UnpackedFloat.unpack .binary64 bits).isNaN = false) :
    signOf? (UnpackedFloat.unpack .binary64 bits) = some (Sign.ofBitVec (unpackSign bits)) ∧
      fieldsOf (UnpackedFloat.unpack .binary64 bits) =
        (↑(unpackExponent bits).toNat, (unpackMantissa bits).toNat) := by
  have small : (unpackMantissa bits).toNat < 2 ^ 52 := (unpackMantissa bits).isLt
  have apart := takenApart_unpack bits
  generalize UnpackedFloat.unpack .binary64 bits = taken at defined apart ⊢
  cases apart with
  | infinity highest nothing =>
    rw [highest, nothing]
    exact ⟨rfl, rfl⟩
  | notANumber => cases defined
  | zero lowest nothing =>
    rw [lowest, nothing]
    exact ⟨rfl, rfl⟩
  | subnormal _ lowest mantissa =>
    refine ⟨rfl, ?_⟩
    rw [fieldsOf_finite, if_pos (by omega), lowest, mantissa]
    rfl
  | normal _ _ mantissa exponent =>
    -- The mantissa got its leading one back, by which it is told from those without one.
    refine ⟨rfl, ?_⟩
    rw [fieldsOf_finite, if_neg (by omega), Prod.mk.injEq]
    omega

/-- What is taken apart into a size has its fields, and a leading one unless the
exponent is the lowest. -/
theorem fields_of_finite {bits : BitVec Format.binary64.numBits} {sign : Sign} {mantissa : Nat}
    {exponent : Int} {positive : 0 < mantissa}
    (form : UnpackedFloat.unpack .binary64 bits = .finite sign mantissa exponent positive) :
    (unpackExponent bits).toNat = 0 ∧ mantissa = (unpackMantissa bits).toNat ∧ exponent = -1074 ∨
      (unpackExponent bits).toNat ≠ 0 ∧ mantissa = 2 ^ 52 + (unpackMantissa bits).toNat ∧
        exponent = (unpackExponent bits).toNat - 1075 := by
  have apart := takenApart_unpack bits
  rw [form] at apart
  cases apart with
  | subnormal _ lowest mantissa exponent =>
    exact .inl ⟨congrArg BitVec.toNat lowest, mantissa, exponent⟩
  | normal _ higher mantissa exponent =>
    exact .inr ⟨fun zero => higher (BitVec.eq_of_toNat_eq zero), mantissa, exponent⟩

/-- The bits of an undefined number are always the same. -/
theorem eq_packedNaN {bits : BitVec Format.binary64.numBits} (valid : Format.binary64.Valid bits)
    (undefined : (UnpackedFloat.unpack .binary64 bits).isNaN = true) :
    bits = packedNaN .binary64 := by
  have apart := takenApart_unpack bits
  generalize UnpackedFloat.unpack .binary64 bits = taken at undefined apart
  cases apart with
  | notANumber highest something => exact valid.eq_packedNaN highest something
  | infinity | zero | subnormal | normal => cases undefined

/-- Valid bits are determined by what they are taken apart into. -/
theorem eq_of_unpack {bits others : BitVec Format.binary64.numBits}
    (valid : Format.binary64.Valid bits) (otherValid : Format.binary64.Valid others)
    (same : UnpackedFloat.unpack .binary64 bits = UnpackedFloat.unpack .binary64 others) :
    bits = others := by
  cases undefined : (UnpackedFloat.unpack .binary64 bits).isNaN with
  | true => rw [eq_packedNaN valid undefined, eq_packedNaN otherValid (same ▸ undefined)]
  | false =>
    -- The same sign and the same fields are shown.
    obtain ⟨sign, fields⟩ := fields_unpack undefined
    obtain ⟨otherSign, otherFields⟩ := fields_unpack (same ▸ undefined)
    rw [same, otherSign, Option.some.injEq] at sign
    rw [same, otherFields, Prod.mk.injEq, Int.natCast_inj, BitVec.toNat_inj, BitVec.toNat_inj]
      at fields
    have keeps : ∀ bit : BitVec 1, (Sign.ofBitVec bit).toBitVec = bit := by decide
    have signs := congrArg Sign.toBitVec sign
    rw [keeps, keeps] at signs
    exact eq_of_fields signs.symm fields.1.symm fields.2.symm

/-- A number consists of its bits. -/
theorem eq_of_toBits {x y : Float} (same : x.toBits = y.toBits) : x = y := by
  rcases x with ⟨⟨bits, valid⟩⟩
  rcases y with ⟨⟨others, otherValid⟩⟩
  obtain rfl : bits = others := same
  rfl

/-- A number is determined by what it is taken apart into. -/
theorem eq_of_toModel_unpack {x y : Float} (same : x.toModel.unpack = y.toModel.unpack) :
    x = y := by
  apply eq_of_toBits
  apply UInt64.toBitVec_inj.mp
  exact eq_of_unpack x.toModel.valid y.toModel.valid same

/-- The first bit of a number decides whether it is negative. -/
theorem isNegative_iff (x : Float) :
    isNegative x = true ↔ @unpackSign .binary64 x.toModel.toBits.toBitVec = 1#1 := by
  obtain ⟨bit, _, _⟩ := toNat_fields x.toModel.toBits.toBitVec
  rw [← BitVec.toNat_inj, bit, isNegative, decide_eq_true_iff]
  rfl

/-- The sign that a defined number shows is that of its first bit. -/
theorem signOf?_eq_some {x : Float} (defined : x.isNaN = false) :
    signOf? x.toModel.unpack = some (if isNegative x then .negative else .positive) := by
  have shown := (fields_unpack defined).1
  change signOf? x.toModel.unpack = _ at shown
  rw [shown]
  by_cases bit : @unpackSign .binary64 x.toModel.toBits.toBitVec = 1#1
  · rw [bit, (isNegative_iff x).mpr bit]
    rfl
  · have zero : ∀ b : BitVec 1, b ≠ 1#1 → b = 0#1 := by decide
    rw [zero _ bit, if_neg fun negative => bit ((isNegative_iff x).mp negative)]
    rfl

/-- Numbers with the same sign show the same sign, if they are defined. -/
theorem signOf?_eq {x y : Float} (defined : x.isNaN = false) (otherDefined : y.isNaN = false)
    (signs : isNegative x = isNegative y) :
    signOf? x.toModel.unpack = signOf? y.toModel.unpack := by
  have bits : @unpackSign .binary64 x.toModel.toBits.toBitVec =
      @unpackSign .binary64 y.toModel.toBits.toBitVec := by
    -- One bit is not enough for more than two signs.
    have one : ∀ a b : BitVec 1, (a = 1#1 ↔ b = 1#1) → a = b := by decide
    apply one
    rw [← isNegative_iff, ← isNegative_iff, signs]
  have shown := (fields_unpack defined).1
  have otherShown := (fields_unpack otherDefined).1
  exact shown.trans (bits ▸ otherShown.symm)

/-- Numbers compare equal as they do taken apart. -/
theorem beq_iff (x y : Float) :
    (x == y) = true ↔ x.toModel.unpack.compare y.toModel.unpack = some .eq := by
  change (x.toModel.unpack.compare y.toModel.unpack == some .eq) = true ↔ _
  exact beq_iff_eq

/-- What compares equal is defined. -/
theorem isNaN_of_compare {a b : UnpackedFloat} {order : Ordering}
    (compared : a.compare b = some order) :
    a.isNaN = false ∧ b.isNaN = false := by
  cases a with
  | notANumber => cases compared
  | infinity | zero | finite =>
    cases b with
    | notANumber => cases compared
    | infinity | zero | finite => exact ⟨rfl, rfl⟩

/-- An undefined number is taken apart into nothing. -/
theorem unpack_of_isNaN {x : Float} (undefined : x.isNaN = true) :
    x.toModel.unpack = .notANumber := by
  change x.toModel.unpack.isNaN = true at undefined
  cases form : x.toModel.unpack with
  | notANumber => rfl
  | infinity | zero | finite =>
    rw [form] at undefined
    cases undefined

/-- Numbers are the same if both are undefined, or if they compare equal and have the same sign. -/
theorem eq_iff (x y : Float) :
    x = y ↔ (x.isNaN = true ∧ y.isNaN = true) ∨
      ((x == y) = true ∧ isNegative x = isNegative y) := by
  constructor
  · rintro rfl
    cases undefined : x.isNaN with
    | true => exact .inl ⟨rfl, rfl⟩
    | false => exact .inr ⟨(beq_iff x x).mpr (compare_self undefined), rfl⟩
  · rintro (⟨undefined, otherUndefined⟩ | ⟨same, signs⟩)
    · -- There is one undefined number only.
      exact eq_of_toModel_unpack
        ((unpack_of_isNaN undefined).trans (unpack_of_isNaN otherUndefined).symm)
    · have compared := (beq_iff x y).mp same
      obtain ⟨defined, otherDefined⟩ := isNaN_of_compare compared
      exact eq_of_toModel_unpack (eq_of_compare compared (signOf?_eq defined otherDefined signs))

/-- A zero is taken apart into nothing but its sign. -/
theorem unpack_of_zero {x : Float} (zero : (x == 0.0) = true) :
    ∃ sign, x.toModel.unpack = .zero sign := by
  have compared := (beq_iff x 0.0).mp zero
  have form : (0.0 : Float).toModel.unpack = .zero .positive := rfl
  rw [form] at compared
  -- Nothing but a zero compares equal to one.
  cases taken : x.toModel.unpack with
  | zero sign => exact ⟨sign, rfl⟩
  | notANumber =>
    rw [taken] at compared
    cases compared
  | infinity sign | finite sign =>
    rw [taken] at compared
    cases sign <;> cases compared

/-- Over zero, a size is infinite with the quotient of the signs. -/
theorem unpack_infinity_div {x : UnpackedFloat} {sign : Sign} (signed : signOf? x = some sign)
    (nonzero : ∀ other, x ≠ .zero other) (divisor : Sign) :
    x.div .binary64 (.zero divisor) = .infinity (sign / divisor) := by
  cases x with
  | notANumber => cases signed
  | zero other => exact absurd rfl (nonzero other)
  | infinity other | finite other =>
    obtain rfl := Option.some.inj signed
    rfl

end Number

namespace Double

/-- A number keeps its value, whatever sign it is given. -/
@[simp] theorem value_signed (negative : Bool) (value : Float) :
    (signed negative value).value = value :=
  rfl

/-- Numbers with one value are one, unless they are undefined with different signs. -/
theorem eq_of_value {x y : Double} (defined : x.isUndefined = false) (same : x.value = y.value) :
    x = y := by
  have signs : x.negative = y.negative := by
    rw [x.lawful defined, y.lawful (same ▸ defined), same]
  cases x
  cases y
  cases same
  cases signs
  rfl

/-- Numbers are identical if they have one value: there is one undefined value, and
a value shows its sign. -/
theorem isSame_iff (x y : Double) : x.isSame y = true ↔ x.value = y.value := by
  unfold isSame
  cases undefined : x.isUndefined with
  | true =>
    -- Then the other one must be undefined too, whatever the two signs are.
    have nan : x.value.isNaN = true := undefined
    rw [Bool.true_or, if_pos rfl, Bool.true_and]
    constructor
    · intro other
      exact (Number.eq_iff _ _).mpr (.inl ⟨nan, other⟩)
    · intro same
      rwa [isUndefined, ← same]
  | false =>
    cases otherUndefined : y.isUndefined with
    | true =>
      have differ : x.value ≠ y.value := by
        intro same
        rw [isUndefined, same] at undefined
        exact absurd (otherUndefined.symm.trans undefined) (by decide)
      simp [differ]
    | false =>
      have signs : (x.negative == y.negative) = true ↔
          Number.isNegative x.value = Number.isNegative y.value := by
        rw [x.lawful undefined, y.lawful otherUndefined]
        exact beq_iff_eq
      have defined : x.value.isNaN = false := undefined
      rw [Bool.false_or, if_neg (by decide), Bool.and_eq_true, signs, Number.eq_iff, defined]
      simp

/-- A number that is zero is defined. -/
theorem isUndefined_of_isZero {x : Double} (zero : x.isZero = true) : x.isUndefined = false :=
  (Number.isNaN_of_compare ((Number.beq_iff x.value 0.0).mp zero)).1

/-- A quotient has the value that the quotient of the values has, also where the divisor is zero. -/
theorem value_divide (negative : Bool) (x y : Double) :
    (divide negative x y).value = x.value / y.value := by
  -- Only a divisor that is zero is treated apart.
  cases zero : y.isZero with
  | false => rw [divide, zero, if_neg (by decide), value_signed]
  | true =>
    obtain ⟨divisor, form⟩ := Number.unpack_of_zero zero
    have quotient : x.value / y.value =
        .ofModel (.pack (x.value.toModel.unpack.div .binary64 y.value.toModel.unpack)) := rfl
    rw [divide, zero, if_pos rfl, quotient, form]
    -- Zero over zero is undefined, whatever the signs.
    cases dividendZero : x.isZero with
    | true =>
      obtain ⟨sign, dividend⟩ := Number.unpack_of_zero dividendZero
      rw [Bool.true_or, if_pos rfl, ofFloat, value_signed, dividend]
      change Number.undefinedResult = .ofModel (.pack .notANumber)
      decide
    | false =>
      cases undefined : x.isUndefined with
      | true =>
        -- There is one undefined number, and over anything it stays the same.
        have dividend : x.value.toModel.unpack = .notANumber := Number.unpack_of_isNaN undefined
        rw [Bool.or_true, if_pos rfl, ofFloat, value_signed, dividend]
        change Number.undefinedResult = .ofModel (.pack .notANumber)
        decide
      | false =>
        -- Both signs are those of the values here, and the infinite quotient has their product.
        have nonzero : ∀ sign, x.value.toModel.unpack ≠ .zero sign := by
          intro sign dividend
          have same : x.isZero = true := by
            rw [isZero, Number.beq_iff, dividend]
            rfl
          rw [dividendZero] at same
          cases same
        have signs := Number.signOf?_eq_some (isUndefined_of_isZero zero)
        rw [form] at signs
        rw [Number.unpack_infinity_div (Number.signOf?_eq_some undefined) nonzero,
          Option.some.inj signs, Bool.or_self, if_neg (by decide), ofFloat, value_signed, withSign,
          withSign, x.lawful undefined, y.lawful (isUndefined_of_isZero zero)]
        cases Number.isNegative x.value <;> cases Number.isNegative y.value <;> decide

end Double

namespace Value

/-- Whether values are one, or numbers with one value. -/
inductive Alike : Value → Value → Prop where
  | refl (value : Value) : Alike value value
  | number {x y : Double} : x.value = y.value → Alike (.number x) (.number y)

/-- Numbers are equal if both are undefined, or if they compare equal and have the same sign. -/
theorem isEqual_number (x y : Double) :
    (number x).isEqual (number y) = true ↔
      (x.value.isNaN = true ∧ y.value.isNaN = true) ∨
        ((x.value == y.value) = true ∧ Number.isNegative x.value = Number.isNegative y.value) := by
  rw [← Number.eq_iff]
  exact Double.isSame_iff x y

/-- Values of which one is no number are alike only if they are one. -/
theorem alike_iff (a b : Value) :
    a.Alike b ↔ a = b ∨ ∃ x y, a = .number x ∧ b = .number y ∧ x.value = y.value := by
  constructor
  · rintro (_ | same)
    · exact .inl rfl
    · exact .inr ⟨_, _, rfl, rfl, same⟩
  · rintro (rfl | ⟨x, y, rfl, rfl, same⟩)
    · exact .refl a
    · exact .number same

/-- A value that a program can compute with is equal to those that are like it, and to no other. -/
theorem isEqual_iff_alike {a b : Value} (proper : a.isProper = true) :
    a.isEqual b = true ↔ a.Alike b := by
  rw [alike_iff]
  -- Values of different types are never equal, and only numbers have an equality of their own.
  cases a with
  | nil | bool | string => cases b <;> simp [isEqual]
  | number x =>
    cases b with
    | number y =>
      rw [isEqual, Double.isSame_iff]
      constructor
      · exact fun same => .inr ⟨x, y, rfl, rfl, same⟩
      · rintro (same | ⟨_, _, ⟨⟩, ⟨⟩, same⟩)
        · rw [number.inj same]
        · exact same
    | nil | bool | string | int | null | token | garbled | loaded => simp [isEqual]
  | int | null | token | garbled | loaded => cases proper

end Value

end LoxLang
