import LoxLang.Number

/-! What numbers amount to, whichever way they are written, and quotients of whole numbers. -/

namespace LoxLang

/-- An amount: a whole number, or a number that is not whole. -/
inductive Amount where
  | whole (value : Int)
  | broken (value : Float)
deriving DecidableEq, Inhabited

namespace Number

/-- The amount of a number; infinite and undefined ones are not whole, and the two
zeros amount to the same. -/
def amount (x : Float) : Amount :=
  if x.isNaN || x.isInf then .broken x
  else if x == 0.0 then .whole 0
  else
    let size := magnitude x
    let divisor := Nat.pow 2 (-size.exponent).toNat
    if size.significand % divisor = 0 then
      let value : Int := size.significand * Nat.pow 2 size.exponent.toNat / divisor
      .whole (if isNegative x then -value else value)
    else .broken x

/-- The quotient of two naturals, rounded to the nearest one, and in a tie to the even one. -/
def nearestQuotient (numerator denominator : Nat) : Nat :=
  let quotient := numerator / denominator
  let twice := 2 * (numerator % denominator)
  if twice < denominator then quotient
  else if denominator < twice then quotient + 1
  else quotient + quotient % 2

/-- The least exponent of the last binary digit of a number. -/
def leastExponent : Int := -1074

/-- The exponent of the last binary digit of the number nearest to a ratio: the
number has at most 53 digits. -/
def unitExponent (numerator denominator : Nat) : Int :=
  let guess := max ((numerator.log2 : Int) - denominator.log2 - 53) leastExponent
  let room := guess + 53
  -- The logarithms leave the exponent open by one.
  if denominator * Nat.pow 2 room.toNat ≤ numerator * Nat.pow 2 (-room).toNat then guess + 1
  else guess

/-- The bits of the first number that is infinite. -/
def infiniteBits : Nat := 0x7ff0000000000000

/-- The number nearest to a ratio of positive naturals, infinite when the ratio is too large. -/
def ofRatio (numerator denominator : Nat) : Float :=
  let unit := unitExponent numerator denominator
  let significand :=
    nearestQuotient (numerator * Nat.pow 2 (-unit).toNat) (denominator * Nat.pow 2 unit.toNat)
  -- A leading digit, where there is one, counts as one more exponent, and so does a carry.
  let bits := (unit - leastExponent).toNat * Nat.pow 2 52 + significand
  Float.ofBits (UInt64.ofNat (min bits infiniteBits))

/-- The number nearest to a whole number. -/
def ofInt (value : Int) : Float :=
  if value = 0 then 0.0
  else if value < 0 then -ofRatio value.natAbs 1
  else ofRatio value.natAbs 1

/-- The number nearest to a quotient of whole numbers, the second of which is not
zero; a zero takes its sign. -/
def ofQuotient (a b : Int) : Float :=
  let size := if a = 0 then 0.0 else ofRatio a.natAbs b.natAbs
  if (a < 0) = (b < 0) then size else -size

end Number

end LoxLang
