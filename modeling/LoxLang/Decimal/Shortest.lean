/-! The shortest decimal that lies in the rounding interval of a binary number. -/

namespace LoxLang.Decimal

/-- A decimal number, `coefficient` times ten to the `exponent`. -/
structure Scaled where
  coefficient : Nat
  exponent : Int
deriving DecidableEq, Repr

/--
A positive binary number `significand` times two to the `exponent`.

When `narrowBelow` holds, the next smaller number is only half as far away as the next larger one.
-/
structure Binary where
  significand : Nat
  exponent : Int
  narrowBelow : Bool
deriving DecidableEq, Repr

/--
The reals that round to one binary number, as three numerators over one denominator.

The ends belong to the interval exactly when `closed` holds.
-/
structure Interval where
  low : Nat
  mid : Nat
  high : Nat
  denominator : Nat
  closed : Bool
deriving DecidableEq, Repr

/-- The rounding interval of a binary number: half a gap on each side, its ends
going to the even neighbour. -/
def Binary.interval (b : Binary) : Interval :=
  -- Everything is counted in quarters of the gap, so that half of a narrow gap is a whole number.
  let below := if b.narrowBelow then 1 else 2
  let quarters := b.exponent - 2
  let scale := Nat.pow 2 quarters.toNat
  { low := (4 * b.significand - below) * scale
    mid := 4 * b.significand * scale
    high := (4 * b.significand + 2) * scale
    denominator := Nat.pow 2 (-quarters).toNat
    closed := b.significand % 2 == 0 }

/-- The two sides of a comparison between a decimal and a fraction, brought to whole numbers. -/
def Scaled.sides (d : Scaled) (numerator denominator : Nat) : Nat × Nat :=
  (d.coefficient * Nat.pow 10 d.exponent.toNat * denominator,
    numerator * Nat.pow 10 (-d.exponent).toNat)

/-- Whether a decimal lies in a rounding interval. -/
def Interval.contains (i : Interval) (d : Scaled) : Bool :=
  let (above, low) := d.sides i.low i.denominator
  let (below, high) := d.sides i.high i.denominator
  if i.closed then low ≤ above && below ≤ high else low < above && below < high

/-- How many decimal digits a positive number has. -/
def digitCount (n : Nat) : Nat :=
  (Nat.toDigits 10 n).length

/-- The exponent of the leading decimal digit of the middle of an interval. -/
def Interval.magnitude (i : Interval) : Int :=
  -- Below one, the leading digit is the first power of ten that lifts the number to one or more.
  if i.denominator ≤ i.mid then (digitCount (i.mid / i.denominator) : Int) - 1
  else -(digitCount ((i.denominator - 1) / i.mid) : Int)

/-- The greatest multiple of ten to the `exponent` that is at most the middle of an interval. -/
def Interval.floorAt (i : Interval) (exponent : Int) : Scaled :=
  { coefficient :=
      i.mid * Nat.pow 10 (-exponent).toNat / (i.denominator * Nat.pow 10 exponent.toNat)
    exponent }

/-- How far a decimal is from the middle of an interval, in units that two decimals
of one exponent share. -/
def Interval.distance (i : Interval) (d : Scaled) : Nat :=
  let (own, mid) := d.sides i.mid i.denominator
  (own - mid) + (mid - own)

/-- Of two neighbouring decimals, the one nearer to the middle, and in a tie the even one. -/
def Interval.nearer (i : Interval) (lower upper : Scaled) : Scaled :=
  let below := i.distance lower
  let above := i.distance upper
  if below < above then lower
  else if above < below then upper
  else if lower.coefficient % 2 == 0 then lower else upper

/-- The multiple of ten to the `exponent` that lies in the interval and is nearest
to its middle, if any. -/
def Interval.onGrid? (i : Interval) (exponent : Int) : Option Scaled :=
  -- If any point of this grid lies in the interval, one of the two around the middle does.
  let lower := i.floorAt exponent
  let upper := { lower with coefficient := lower.coefficient + 1 }
  match i.contains lower, i.contains upper with
  | true, true => some (i.nearer lower upper)
  | true, false => some lower
  | false, true => some upper
  | false, false => none

/-- All decimal digits of a binary number. -/
def Binary.exact (b : Binary) : Scaled :=
  { coefficient := b.significand * Nat.pow 2 b.exponent.toNat * Nat.pow 5 (-b.exponent).toNat
    exponent := min b.exponent 0 }

/-- Seventeen digits tell any two double precision numbers apart. -/
def maxDigits : Nat := 17

/-- The shortest decimal that rounds to a binary number, and of those the nearest to it. -/
def Binary.shortest (b : Binary) : Scaled :=
  let interval := b.interval
  let lead := interval.magnitude
  -- The grids get finer by one digit at a time.
  ((List.range maxDigits).findSome? fun (n : Nat) => interval.onGrid? (lead - n)).getD b.exact

/-- The digits of a decimal without the zeros at their end, and the exponent of the
first of them. -/
def Scaled.digits (d : Scaled) : List Char × Int :=
  let written := Nat.toDigits 10 d.coefficient
  -- One digit stands before the point and the others after it, so zeros at the end do not count.
  let lead := d.exponent + (written.length - 1 : Nat)
  ((written.reverse.dropWhile (· == '0')).reverse, lead)

end LoxLang.Decimal
