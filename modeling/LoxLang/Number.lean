import LoxLang.Decimal.Layout
import LoxLang.Decimal.Shortest

/-! Numbers of the language: double precision values and their texts. -/

namespace LoxLang.Number

/-- The magnitude of a finite number other than zero, split into significand and exponent. -/
def magnitude (x : Float) : Decimal.Binary :=
  let bits : Nat := x.toBits.toNat
  let fraction : Nat := bits % Nat.pow 2 52
  let biased : Nat := bits / Nat.pow 2 52 % Nat.pow 2 11
  -- Numbers of the lowest exponent have no implicit leading bit.
  if biased = 0 then { significand := fraction, exponent := -1074, narrowBelow := false }
  else
    { significand := fraction + Nat.pow 2 52
      exponent := (biased : Int) - 1075
      narrowBelow := fraction = 0 && 1 < biased }

/-- Whether the sign bit of a number is set. -/
def isNegative (x : Float) : Bool :=
  x.toBits.toNat / Nat.pow 2 63 % 2 = 1

/-- Sizes from a ten-thousandth up to sixteen digits are positional, an exponent has
two digits or more. -/
def layout : Decimal.Layout :=
  { positionalFrom := -4, positionalBelow := 16, exponentWidth := 2 }

/-- The text of a number without its sign. -/
def unsignedText (x : Float) : List Char :=
  if x.isInf then ['i', 'n', 'f']
  else if x == 0.0 then ['0', '.', '0']
  else
    let (digits, lead) := (magnitude x).shortest.digits
    layout.write digits lead

/-- The full text of a number: the fewest digits that read back as it, always marked as a
number with a fraction. -/
def chars (x : Float) : List Char :=
  if x.isNaN then ['n', 'a', 'n']
  else if isNegative x then '-' :: unsignedText x
  else unsignedText x

/-- The full text of a number as a string. -/
def text (x : Float) : String :=
  String.ofList (chars x)

/-- A text without a final point and zero. -/
def dropWhole (written : List Char) : List Char :=
  match written.reverse with
  | '0' :: '.' :: rest => rest.reverse
  | _ => written

/-- The text a program shows for a number: whole numbers lose their fraction. -/
def display (x : Float) : String :=
  String.ofList (dropWhole (chars x))

/-- The number nearest to a decimal, infinite when the decimal is too large. -/
def ofScaled (d : Decimal.Scaled) : Float :=
  Float.ofScientific d.coefficient (d.exponent < 0) d.exponent.natAbs

/-- The value of a string of decimal digits. -/
def ofDigits (digits : List Char) : Nat :=
  digits.foldl (fun value digit => 10 * value + (digit.toNat - '0'.toNat)) 0

/-- The number written as whole digits, fraction digits and a power of ten. -/
def ofParts (whole fraction : List Char) (exponent : Int) : Float :=
  ofScaled { coefficient := ofDigits (whole ++ fraction), exponent := exponent - fraction.length }

/-- A number with no value. -/
def undefinedResult : Float := 0.0 / 0.0

end LoxLang.Number
