import LoxLang.Number

/-! Numbers at run time: double precision values, each with a sign, also where it has no value. -/

namespace LoxLang

/--
A number at run time.

The sign of an undefined number means nothing, but it is there, and it can be copied.
-/
structure Double where
  value : Float
  negative : Bool
  /-- The sign of a number that is defined belongs to its value. -/
  lawful : value.isNaN = false → negative = Number.isNegative value
deriving DecidableEq

namespace Double

/-- The number with a value, and with the given sign if that is undefined. -/
def signed (negative : Bool) (value : Float) : Double where
  value
  negative := if value.isNaN then negative else Number.isNegative value
  lawful defined := by rw [defined]; rfl

/-- The number with a value; undefined ones are taken to be positive. -/
def ofFloat (value : Float) : Double :=
  signed false value

/-- Whether a number has no value. -/
def isUndefined (x : Double) : Bool :=
  x.value.isNaN

/-- Whether a number is one of the two zeros. -/
def isZero (x : Double) : Bool :=
  x.value == 0.0

/-- A number with its sign turned, that of an undefined one too. -/
def negate (x : Double) : Double :=
  signed (!x.negative) (-x.value)

/-- Identity of numbers: all undefined ones are one, and the two zeros differ. -/
def isSame (x y : Double) : Bool :=
  if x.isUndefined || y.isUndefined then x.isUndefined && y.isUndefined
  else x.value == y.value && x.negative == y.negative

/-- A size with the sign of a number. -/
def withSign (size : Float) (x : Double) : Float :=
  if x.negative then -size else size

/--
Division: over zero, a number is infinite with the product of the signs, unless it
is zero or undefined itself.

The given sign is that of a quotient which is undefined although the divisor is not zero.
-/
def divide (negative : Bool) (x y : Double) : Double :=
  if y.isZero then
    -- The sign of an undefined number must not become that of an infinite one.
    if x.isZero || x.isUndefined then ofFloat Number.undefinedResult
    else ofFloat (withSign (1.0 / 0.0) x * withSign 1.0 y)
  else signed negative (x.value / y.value)

end Double

end LoxLang
