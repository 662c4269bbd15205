import LoxLang.Proofs.Reference.Operators
import LoxLang.Proofs.Reference.Scopes

/-! The meaning of programs as rules over a stack of scopes, with no machine behind them. -/

namespace LoxLang.Reference

/-- The scopes that are in sight, the innermost first. -/
abbrev Scopes := List (Env Datum)

/-- The error of a name that no scope binds. -/
def undefined (name : Token) : RuntimeError :=
  { blamed := name, fault := .undefinedVariable name.lexeme }

/-- A message and the line of the token that it is about. -/
def located (message : String) (token : Token) : String :=
  message ++ "\n[line " ++ toString token.line ++ "]\n"

/-- What is reported of an error. -/
inductive Reports : RuntimeError → String → Prop where
  | undefined (name : Token) :
    Reports (undefined name) (located ("Undefined variable '" ++ name.lexeme ++ "'.") name)
  | operandNotNumber (operator : Token) :
    Reports ⟨operator, .operandNotNumber⟩ (located "Operand must be a number." operator)
  | operandsNotNumbers (operator : Token) :
    Reports ⟨operator, .operandsNotNumbers⟩ (located "Operands must be numbers." operator)
  | operandsNotAddable (operator : Token) :
    Reports ⟨operator, .operandsNotAddable⟩
      (located "Operands must be two numbers or two strings." operator)

/--
The value of an expression, or the error that it ends with, and the scopes afterwards.

Operands are evaluated from left to right, and what they assign stays assigned if a later one fails.
-/
inductive Evaluates : Scopes → Expr → Except RuntimeError Datum → Scopes → Prop where
  | literal {scopes : Scopes} {value : Value} {datum : Datum} : value.Denotes datum →
    Evaluates scopes (.literal value) (.ok datum) scopes
  | grouping {before after : Scopes} {inner : Expr} {result : Except RuntimeError Datum} :
    Evaluates before inner result after → Evaluates before (.grouping inner) result after
  | use {scopes : Scopes} {name : Token} {value : Datum} :
    lookup? scopes (.word name.lexeme) = some value →
      Evaluates scopes (.use name) (.ok value) scopes
  | useUndefined {scopes : Scopes} {name : Token} :
    lookup? scopes (.word name.lexeme) = none →
      Evaluates scopes (.use name) (.error (undefined name)) scopes
  -- The name of an assignment is looked for only after its value is known.
  | assign {before between after : Scopes} {name : Token} {expr : Expr} {value : Datum} :
    Evaluates before expr (.ok value) between →
      assign? (.word name.lexeme) value between = some after →
      Evaluates before (.assign name expr) (.ok value) after
  | assignUndefined {before after : Scopes} {name : Token} {expr : Expr} {value : Datum} :
    Evaluates before expr (.ok value) after → assign? (.word name.lexeme) value after = none →
      Evaluates before (.assign name expr) (.error (undefined name)) after
  | assignFailed {before after : Scopes} {name : Token} {expr : Expr} {error : RuntimeError} :
    Evaluates before expr (.error error) after →
      Evaluates before (.assign name expr) (.error error) after
  | unary {before after : Scopes} {operator : Token} {expr : Expr} {a : Datum}
    {result : Except RuntimeFault Datum} :
    Evaluates before expr (.ok a) after → Turns operator.kind a result →
      Evaluates before (.unary operator expr) (blamedOn operator result) after
  | unaryFailed {before after : Scopes} {operator : Token} {expr : Expr} {error : RuntimeError} :
    Evaluates before expr (.error error) after →
      Evaluates before (.unary operator expr) (.error error) after
  | binary {before between after : Scopes} {left right : Expr} {operator : Token} {a b : Datum}
      {result : Except RuntimeFault Datum} :
    Evaluates before left (.ok a) between → Evaluates between right (.ok b) after →
      Joins operator.kind a b result →
      Evaluates before (.binary left operator right) (blamedOn operator result) after
  | leftFailed {before after : Scopes} {left right : Expr} {operator : Token}
    {error : RuntimeError} :
    Evaluates before left (.error error) after →
      Evaluates before (.binary left operator right) (.error error) after
  | rightFailed {before between after : Scopes} {left right : Expr} {operator : Token} {a : Datum}
      {error : RuntimeError} :
    Evaluates before left (.ok a) between → Evaluates between right (.error error) after →
      Evaluates before (.binary left operator right) (.error error) after

mutual

/-- How a statement ends, the scopes afterwards, and the texts it prints. -/
inductive Executes : Scopes → Stmt → Except RuntimeError Unit → Scopes → List String → Prop where
  | expression {before after : Scopes} {inner : Expr} {value : Datum} :
    Evaluates before inner (.ok value) after → Executes before (.expression inner) (.ok ()) after []
  | print {before after : Scopes} {inner : Expr} {value : Datum} {text : String} :
    Evaluates before inner (.ok value) after → value.Shows text →
      Executes before (.print inner) (.ok ()) after [text ++ "\n"]
  | declare {inner : Env Datum} {outer : Scopes} {name : Token} :
    Executes (inner :: outer) (.declare name none) (.ok ())
      (inner.insert (.word name.lexeme) .nil :: outer) []
  | declareAs {before outer : Scopes} {inner : Env Datum} {name : Token} {initial : Expr}
    {value : Datum} :
    Evaluates before initial (.ok value) (inner :: outer) →
      Executes before (.declare name (some initial)) (.ok ())
        (inner.insert (.word name.lexeme) value :: outer) []
  | expressionFailed {before after : Scopes} {inner : Expr} {error : RuntimeError} :
    Evaluates before inner (.error error) after →
      Executes before (.expression inner) (.error error) after []
  | printFailed {before after : Scopes} {inner : Expr} {error : RuntimeError} :
    Evaluates before inner (.error error) after →
      Executes before (.print inner) (.error error) after []
  | declareFailed {before after : Scopes} {name : Token} {initial : Expr} {error : RuntimeError} :
    Evaluates before initial (.error error) after →
      Executes before (.declare name (some initial)) (.error error) after []
  -- A block has a scope of its own, which is gone afterwards, however the block ends.
  | block {before after : Scopes} {own : Env Datum} {body : List Stmt}
    {ending : Except RuntimeError Unit}
      {printed : List String} :
    ExecutesAll (∅ :: before) body ending (own :: after) printed →
      Executes before (.block body) ending after printed

/-- How statements in turn end, the scopes afterwards, and the texts they print. -/
inductive ExecutesAll :
    Scopes → List Stmt → Except RuntimeError Unit → Scopes → List String → Prop where
  | done {scopes : Scopes} : ExecutesAll scopes [] (.ok ()) scopes []
  | next {before between after : Scopes} {first : Stmt} {rest : List Stmt}
    {ending : Except RuntimeError Unit}
      {printed later : List String} :
    Executes before first (.ok ()) between printed → ExecutesAll between rest ending after later →
      ExecutesAll before (first :: rest) ending after (printed ++ later)
  | failed {before after : Scopes} {first : Stmt} {rest : List Stmt} {error : RuntimeError}
    {printed : List String} :
    Executes before first (.error error) after printed →
      ExecutesAll before (first :: rest) (.error error) after printed

end

/-- What a whole program does to the outermost scope: how it ends, what is bound
afterwards, and its output. -/
def Runs (globals : Env Datum) (program : List Stmt) (ending : Except RuntimeError Unit)
    (final : Env Datum) (output : String) :
    Prop :=
  ∃ printed, ExecutesAll [globals] program ending [final] printed ∧ output = String.join printed

/-- An expression has one value or error, and leaves one stack of scopes. -/
theorem Evaluates.unique {before after other : Scopes} {e : Expr}
    {first second : Except RuntimeError Datum} (evaluated : Evaluates before e first after)
    (also : Evaluates before e second other) :
    first = second ∧ after = other := by
  -- The parts of an expression have one value each, and that value decides which rule applies.
  induction evaluated generalizing second other with
  | literal denotes => cases also with | literal again => exact ⟨by rw [denotes.unique again], rfl⟩
  | grouping _ ih => cases also with | grouping inner => exact ih inner
  | use found => cases also <;> simp_all
  | useUndefined missing => cases also <;> simp_all
  | assign _ found ih => cases also <;> grind
  | assignUndefined _ missing ih => cases also <;> grind
  | assignFailed _ ih => cases also <;> grind
  | unary _ turned ih => cases also <;> grind [Turns.unique]
  | unaryFailed _ ih => cases also <;> grind
  | binary _ _ joined leftIh rightIh => cases also <;> grind [Joins.unique]
  | leftFailed _ ih => cases also <;> grind
  | rightFailed _ _ leftIh rightIh => cases also <;> grind

mutual

/-- A statement ends in one way, leaves one stack of scopes, and prints one list of texts. -/
theorem Executes.unique {before after other : Scopes} {stmt : Stmt}
    {first second : Except RuntimeError Unit} {printed also : List String}
    (executed : Executes before stmt first after printed)
    (again : Executes before stmt second other also) :
    first = second ∧ after = other ∧ printed = also := by
  -- Expressions settle all forms but blocks, which are settled by their statements.
  cases executed with
  | expression inner | declareAs inner | expressionFailed inner | printFailed inner
  | declareFailed inner =>
    cases again <;> grind [inner.unique]
  | print inner shows =>
    cases again with
    | print innerAgain showsAgain =>
      obtain ⟨same, rfl⟩ := inner.unique innerAgain
      obtain rfl := Except.ok.inj same
      exact ⟨rfl, rfl, by rw [shows.unique showsAgain]⟩
    | printFailed failed => exact absurd (inner.unique failed).1 (by simp)
  | declare => cases again; exact ⟨rfl, rfl, rfl⟩
  | block body =>
    cases again with
    | block bodyAgain =>
      obtain ⟨rfl, scopes, rfl⟩ := body.unique bodyAgain
      exact ⟨rfl, (List.cons.inj scopes).2, rfl⟩

/-- Statements in turn end in one way, leave one stack of scopes, and print one list of texts. -/
theorem ExecutesAll.unique {before after other : Scopes} {program : List Stmt}
    {first second : Except RuntimeError Unit} {printed also : List String}
    (executed : ExecutesAll before program first after printed)
    (again : ExecutesAll before program second other also) :
    first = second ∧ after = other ∧ printed = also := by
  -- Whether the first statement fails is settled by the statement itself.
  cases executed with
  | done => cases again; exact ⟨rfl, rfl, rfl⟩
  | next head tail =>
    cases again with
    | next headAgain tailAgain =>
      obtain ⟨_, rfl, rfl⟩ := head.unique headAgain
      obtain ⟨rfl, rfl, rfl⟩ := tail.unique tailAgain
      exact ⟨rfl, rfl, rfl⟩
    | failed headAgain => exact absurd (head.unique headAgain).1 (by simp)
  | failed head =>
    cases again with
    | next headAgain _ => exact absurd (head.unique headAgain).1 (by simp)
    | failed headAgain => exact head.unique headAgain

end

/-- A program does one thing. -/
theorem Runs.unique {globals final other : Env Datum} {program : List Stmt}
    {first second : Except RuntimeError Unit} {output also : String}
    (ran : Runs globals program first final output)
    (again : Runs globals program second other also) :
    first = second ∧ final = other ∧ output = also := by
  obtain ⟨printed, executed, rfl⟩ := ran
  obtain ⟨_, executedAgain, rfl⟩ := again
  obtain ⟨rfl, scopes, rfl⟩ := executed.unique executedAgain
  exact ⟨rfl, (List.cons.inj scopes).1, rfl⟩

end LoxLang.Reference
