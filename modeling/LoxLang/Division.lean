import LoxLang.Amount
import LoxLang.Host
import LoxLang.Value

/-!
Division of any two values.

Programs divide numbers only. As a function of its own division also takes whole numbers and
truth values, and says what it cannot divide.
-/

namespace LoxLang

variable [Host]

/-- Why two values cannot be divided. -/
inductive DivisionError where
  | quotientTooLarge
  | operandTooLarge
  /-- Something other than a number is over zero. -/
  | notReal (typeName : String)
  | notDivisible (left right : String)
deriving DecidableEq, Repr

/-- The wording of a division error. -/
def DivisionError.message : DivisionError → String
  | quotientTooLarge => "integer division result too large for a float"
  | operandTooLarge => "int too large to convert to float"
  | notReal typeName => "must be real number, not " ++ typeName
  | notDivisible left right =>
    "unsupported operand type(s) for /: '" ++ left ++ "' and '" ++ right ++ "'"

/-- An operand of a division. -/
inductive Operand where
  | whole (value : Int)
  | number (value : Double)
deriving DecidableEq

namespace Operand

/-- The operand that a value is; the truth values count as one and zero. -/
def ofValue? : Value → Option Operand
  | .int i => some (whole i)
  | .bool true => some (whole 1)
  | .bool false => some (whole 0)
  | .number x => some (number x)
  | .nil | .string _ | .null | .token .. | .garbled _ | .loaded _ => none

/-- Whether an operand is zero. -/
def isZero : Operand → Bool
  | whole i => i == 0
  | number x => x.isZero

/-- A result that must be finite. -/
def finite (x : Float) (otherwise : DivisionError) : Except DivisionError Double :=
  if x.isInf then .error otherwise else .ok (.ofFloat x)

/-- The number that an operand is nearest to. -/
def nearest : Operand → Except DivisionError Double
  | whole i => finite (Number.ofInt i) .operandTooLarge
  | number x => .ok x

/-- The quotient of two operands; that of whole numbers is rounded only once. -/
def divide (a b : Operand) : Except DivisionError Double := do
  match a, b with
  | whole m, whole n =>
    if n = 0 then return .divide false (← nearest a) (.ofFloat 0.0)
    else finite (Number.ofQuotient m n) .quotientTooLarge
  | _, _ =>
    let x ← nearest a
    let y ← nearest b
    return .divide (undefinedSign .slash x y) x y

end Operand

/-- The quotient of two values. -/
def Value.divide (a b : Value) : Except DivisionError Double :=
  let typeName (value : Value) : String := value.toNode.typeName
  match Operand.ofValue? a, Operand.ofValue? b with
  | some m, some n => m.divide n
  | none, some n =>
    if n.isZero then .error (.notReal (typeName a))
    else .error (.notDivisible (typeName a) (typeName b))
  | _, none => .error (.notDivisible (typeName a) (typeName b))

end LoxLang
