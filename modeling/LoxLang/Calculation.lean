import LoxLang.Session

/-! Single expressions evaluated on given variables. -/

namespace LoxLang

variable [Host]

/-- Why a program has no expression to evaluate. -/
inductive NoExpression where
  | empty
  /-- The first statement does not consist of an expression. -/
  | otherStatement (typeName : String)
deriving DecidableEq, Repr

/-- The wording of the lack of an expression. -/
def NoExpression.message : NoExpression → String
  | empty => "list index out of range"
  | otherStatement typeName => (Unsupported.missingField typeName "expression").message

/-- The expression that a program starts with. -/
def firstExpression : List Stmt → Except NoExpression Expr
  | [] => .error .empty
  | .expression inner :: _ | .print inner :: _ => .ok inner
  | first :: _ => .error (.otherStatement (Node.ofStmt first).typeName)

/-- What comes of evaluating a text. -/
inductive Calculation where
  | rejected (diagnostics : List Diagnostic)
  | absent (cause : NoExpression) (globals : Bindings)
  | halted (halt : Halt) (globals : Bindings)
  | evaluated (value : Value) (globals : Bindings)

/-- Evaluates the first expression of a text, which needs no semicolon at its end. -/
def calculate (globals : Bindings) (text : String) : Calculation :=
  let source := text ++ ";"
  match sourceDiagnostics source, firstExpression (parseSource source) with
  | [], .ok expression =>
    let (result, machine) := Exec.evaluate expression (Session.start 0 globals).machine
    let after := machine.forest.bindingsOf globalScope
    match result with
    | .ok value => .evaluated value after
    | .error halt => .halted halt after
  | [], .error cause => .absent cause globals
  | diagnostics, _ => .rejected diagnostics

end LoxLang
