import LoxLang.Name
import LoxLang.Report
import LoxLang.Token.Mark

/-! Why programs stop early: runtime errors, requests without a rule, and lack of room. -/

namespace LoxLang

/-- What went wrong while a program ran. -/
inductive RuntimeFault where
  | undefinedVariable (name : Text)
  | operandNotNumber
  | operandsNotNumbers
  | operandsNotAddable
  | nestedTooDeeply
deriving DecidableEq

/-- The wording of a runtime fault. -/
def RuntimeFault.message : RuntimeFault → Text
  | undefinedVariable name => "Undefined variable '" ++ name ++ "'."
  | operandNotNumber => "Operand must be a number."
  | operandsNotNumbers => "Operands must be numbers."
  | operandsNotAddable => "Operands must be two numbers or two strings."
  | nestedTooDeeply => nestingMessage

/-- A runtime fault and the token it is blamed on. -/
structure RuntimeError where
  blamed : Mark
  fault : RuntimeFault
deriving DecidableEq

/-- The line of the token that a runtime error is blamed on. -/
def RuntimeError.line (e : RuntimeError) : Json :=
  e.blamed.line?.getD .null

/-- The debug line about a runtime error. -/
def RuntimeError.debugLine (e : RuntimeError) : Text :=
  "runtime error at line " ++ e.line.text ++ ": " ++ e.fault.message

/-- The notice of a runtime error. -/
def RuntimeError.notice (e : RuntimeError) : Notice :=
  .runtime e.line e.fault.message.escaped

/-- What a program asks for that has no rule. -/
inductive Unsupported where
  | statement (typeName : String)
  | expression (typeName : String)
  | unaryOperator (lexeme : String)
  | binaryOperator (lexeme : String)
  /-- A field of a token is needed where there is no token. -/
  | missingField (typeName field : String)
  /-- A variable is named by something that is no name. -/
  | unusableName (typeName : String)
deriving DecidableEq, Repr

/-- The wording of an unsupported request. -/
def Unsupported.message : Unsupported → String
  | statement typeName => "execute: unexpected node type " ++ typeName
  | expression typeName => "evaluate: unexpected node type " ++ typeName
  | unaryOperator lexeme => "unsupported unary operator " ++ lexeme
  | binaryOperator lexeme => "unsupported binary operator " ++ lexeme
  | missingField typeName field => "'" ++ typeName ++ "' object has no attribute '" ++ field ++ "'"
  | unusableName typeName => "unhashable type: '" ++ typeName ++ "'"

/-- A channel that takes characters only; halves of pairs are refused. -/
inductive Channel where
  | output
  | debug
deriving DecidableEq, Repr

/-- Why a run stops early. -/
inductive Halt where
  | failed (error : RuntimeError)
  | unsupported (request : Unsupported)
  | nestedTooDeeply
  /-- A channel refuses a text because of the halves in it. -/
  | unwritable (channel : Channel) (blot : Blot)
deriving DecidableEq

namespace Mark

/-- A field that only tokens have. -/
def field {α : Type} (mark : Mark) (name : String) (found : Option α) : Except Halt α :=
  match found with
  | some value => .ok value
  | none => .error (.unsupported (.missingField mark.typeName name))

/-- The kind of a mark, which must be a token. -/
def kind (mark : Mark) : Except Halt Kind :=
  mark.field "type" mark.kind?

/-- The name that a mark, which must be a token, stands for. -/
def name (mark : Mark) : Except Halt Name := do
  let lexeme ← mark.field "lexeme" mark.lexeme?
  match Name.ofData? lexeme with
  | some name => return name
  | none => .error (.unsupported (.unusableName lexeme.typeName))

/-- How a run stops at a fault that is blamed on a mark. -/
def blame (mark : Mark) (fault : RuntimeFault) : Halt :=
  match mark.field "line" mark.line? with
  | .ok _ => .failed { blamed := mark, fault }
  | .error halt => halt

end Mark

end LoxLang
