/-!
How a digit string is laid out as text: positional for moderate sizes, otherwise with an exponent.
-/

namespace LoxLang.Decimal

/-- The decisions a number format takes once the digits are known. -/
structure Layout where
  /-- The least exponent of the leading digit that is written positionally. -/
  positionalFrom : Int
  /-- The least exponent of the leading digit that is too large for positional writing. -/
  positionalBelow : Int
  /-- The least number of digits of a written exponent. -/
  exponentWidth : Nat
deriving DecidableEq, Repr

/-- A run of zeros. -/
def zeros (count : Nat) : List Char :=
  List.replicate count '0'

/-- Digits with the leading one at ten to the `lead`, written out with at least one digit on
each side of the point. -/
def positional (digits : List Char) (lead : Int) : List Char :=
  if lead < 0 then
    '0' :: '.' :: zeros (-lead - 1).toNat ++ digits
  else
    let whole := lead.toNat + 1
    if digits.length ≤ whole then digits ++ zeros (whole - digits.length) ++ ['.', '0']
    else digits.take whole ++ '.' :: digits.drop whole

/-- An exponent with its sign, padded with zeros to a least width. -/
def signedExponent (width : Nat) (exponent : Int) : List Char :=
  let written := Nat.toDigits 10 exponent.natAbs
  let sign := if exponent < 0 then '-' else '+'
  sign :: zeros (width - written.length) ++ written

/-- One digit before the point, the others after it, and the exponent of the first. -/
def scientific (width : Nat) (digits : List Char) (lead : Int) : List Char :=
  let fraction := if digits.length ≤ 1 then [] else '.' :: digits.drop 1
  digits.take 1 ++ fraction ++ 'e' :: signedExponent width lead

/-- The text of a digit string whose leading digit stands at ten to the `lead`. -/
def Layout.write (layout : Layout) (digits : List Char) (lead : Int) : List Char :=
  if layout.positionalFrom ≤ lead ∧ lead < layout.positionalBelow then positional digits lead
  else scientific layout.exponentWidth digits lead

end LoxLang.Decimal
