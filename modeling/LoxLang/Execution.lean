import LoxLang.Host
import LoxLang.Scope
import LoxLang.Tree.Basic

/-! Running programs: expressions are evaluated left to right, statements are executed in turn. -/

namespace LoxLang

/-- One thing that happens on a channel to the outside. -/
inductive Event where
  /-- Text on the output channel. -/
  | printed (text : String)
  /-- A report on the error channel. -/
  | noticed (notice : Notice)
  /-- A line on the debug channel, and the level from which on it is of interest. -/
  | debugged (level : Nat) (message : String)
deriving DecidableEq

/-- The state of a run: its scopes, the scope it is in, how much it tells about itself, and
what happened so far. -/
structure Machine where
  forest : Forest := .root []
  current : Nat := 0
  debugLevel : Nat := 0
  /-- The latest event stands first. -/
  events : List Event := []

/-- The number of the outermost scope. -/
def globalScope : Nat := 0

/-- A computation on the machine; what it did before it stopped stays done. -/
abbrev Exec := ExceptT Halt (StateM Machine)

namespace Machine

/-- Adds an event. -/
def emit (machine : Machine) (event : Event) : Machine :=
  { machine with events := event :: machine.events }

/-- Adds a debug line if the machine tells that much. -/
def debug (machine : Machine) (level : Nat) (message : String) : Machine :=
  if level ≤ machine.debugLevel then machine.emit (.debugged level message) else machine

end Machine

namespace Exec

/-- A result as a computation that leaves the machine alone. -/
def ofResult {α : Type} (result : Except Halt α) : Exec α :=
  match result with
  | .ok value => return value
  | .error halt => throw halt

/-- The value of a name. -/
def readVariable (name : Mark) : Exec Value := do
  let machine ← get
  ofResult (machine.forest.read machine.current name)

/-- Gives a name a new value in the scope that binds it. -/
def assignName (mark : Mark) (value : Value) : Exec Unit := do
  let machine ← get
  let forest ← ofResult (machine.forest.write machine.current mark value)
  set { machine with forest }

/-- Binds a name in the current scope. -/
def bindName (mark : Mark) (value : Value) : Exec Unit := do
  let name ← ofResult mark.name
  modify fun machine =>
    { machine with forest := machine.forest.define machine.current name value }

/-- Adds a debug line if the machine tells that much; the channel may refuse it. -/
def tell (level : Nat) (line : Text) : Exec Unit := fun machine =>
  if level ≤ machine.debugLevel then
    match line with
    | .plain message => (.ok (), machine.emit (.debugged level message))
    | .garbled text => (.error (.unwritable .debug (Glyph.blot text.glyphs)), machine)
  else (.ok (), machine)

variable [Host]

/-- The text that a program shows for a value, if there is room to make it. -/
def shown (value : Value) : Except Halt Text :=
  match value with
  | .loaded tree => if canShow tree.tree then .ok value.display else .error .nestedTooDeeply
  | _ => .ok value.display

/-- Tells about a value, whose text is made in any case. -/
def mention (value : Value) (line : Text → Text) : Exec Unit := do
  let text ← ofResult (shown value)
  tell 1 (line (text ++ " (" ++ value.typeName ++ ")"))

/-- The debug line about an assignment. -/
def assignmentLine (mark : Mark) (described : Text) : Text :=
  "assign " ++ mark.text ++ " = " ++ described

/-- The debug line about a definition, with the depth of the scope that gets it. -/
def definitionLine (mark : Mark) (depth : Nat) (described : Text) : Text :=
  "define " ++ mark.text ++ " = " ++ described ++ " at depth " ++ toString depth

/-- Gives a name a new value, and tells about it. -/
def writeVariable (mark : Mark) (value : Value) : Exec Unit := do
  assignName mark value
  mention value (assignmentLine mark)

/-- Binds a name in the current scope, and tells about it. -/
def defineVariable (mark : Mark) (value : Value) : Exec Unit := do
  bindName mark value
  let machine ← get
  mention value (definitionLine mark (machine.forest.depth machine.current))

/-- Prints a value on a line of its own; the channel may refuse it. -/
def printValue (value : Value) : Exec Unit := do
  match ← ofResult (shown value) with
  | .plain text => modify (·.emit (.printed (text ++ "\n")))
  | .garbled text => throw (.unwritable .output (Glyph.blot text.glyphs))

/-- A computation whose lack of room is blamed on a mark. -/
def blaming {α : Type} (mark : Mark) (body : Exec α) : Exec α :=
  tryCatch body fun
    | .nestedTooDeeply => throw (mark.blame .nestedTooDeeply)
    | other => throw other

/-- The result of a prefix operator. -/
def applyUnary (operator : Mark) (operand : Value) : Except Halt Value := do
  match ← operator.kind, operand with
  | .minus, .number x => return .number x.negate
  | .minus, _ => .error (operator.blame .operandNotNumber)
  | .bang, operand => return .bool (!operand.isTruthy)
  | _, _ => .error (.unsupported (.unaryOperator operator.text.escaped))

/-- The result of an operator on two numbers. -/
def arithmetic (operator : Mark) (a b : Value) (result : Double → Double → Value) :
    Except Halt Value :=
  match a, b with
  | .number x, .number y => .ok (result x y)
  | _, _ => .error (operator.blame .operandsNotNumbers)

/-- What a value adds to a text: next to a text, a number counts as the text it shows. -/
def addend? : Value → Option Text
  | .number x => some (Number.display x.value)
  | .string s => some s
  | .garbled text => some (.garbled text)
  | _ => none

/-- The sum of two numbers, or two texts joined. -/
def addition (operator : Mark) (a b : Value) : Except Halt Value :=
  match a, b with
  | .number x, .number y => .ok (.number (.signed (undefinedSign .plus x y) (x.value + y.value)))
  | _, _ =>
    match addend? a, addend? b with
    | some s, some t => .ok (.ofText (s ++ t))
    | _, _ => .error (operator.blame .operandsNotAddable)

/-- Whether two values are equal, if there is room to compare them. -/
def compared (a b : Value) : Except Halt Bool :=
  match a, b with
  | .loaded tree, .loaded other =>
    if tree.tree.typeName ≠ other.tree.typeName ∨ canCompare tree.tree other.tree then
      .ok (a.isEqual b)
    else .error .nestedTooDeeply
  | _, _ => .ok (a.isEqual b)

/-- The result of a binary operator. -/
def applyBinary (operator : Mark) (a b : Value) : Except Halt Value := do
  match ← operator.kind with
  | .plus => addition operator a b
  | .minus =>
    arithmetic operator a b fun x y =>
      .number (.signed (undefinedSign .minus x y) (x.value - y.value))
  | .star =>
    arithmetic operator a b fun x y =>
      .number (.signed (undefinedSign .star x y) (x.value * y.value))
  | .slash => arithmetic operator a b fun x y => .number (.divide (undefinedSign .slash x y) x y)
  | .greater => arithmetic operator a b fun x y => .bool (decide (y.value < x.value))
  | .greaterEqual => arithmetic operator a b fun x y => .bool (decide (y.value ≤ x.value))
  | .less => arithmetic operator a b fun x y => .bool (decide (x.value < y.value))
  | .lessEqual => arithmetic operator a b fun x y => .bool (decide (x.value ≤ y.value))
  | .equalEqual => return .bool (← compared a b)
  | .bangEqual => return .bool (!(← compared a b))
  | _ => .error (.unsupported (.binaryOperator operator.text.escaped))

/-- The value of an expression, with room for so many levels of nesting. -/
def evaluateWithin : Nat → Expr → Exec Value
  | 0, _ => throw .nestedTooDeeply
  | room + 1, expr =>
    match expr with
    | .literal value => return value
    | .grouping inner => evaluateWithin room inner
    | .use name => readVariable name
    | .assign name value => do
      let value ← blaming name (evaluateWithin room value)
      writeVariable name value
      return value
    | .unary operator operand => do
      let operand ← blaming operator (evaluateWithin room operand)
      ofResult (applyUnary operator operand)
    | .binary left operator right => do
      let (a, b) ← blaming operator do
        let a ← evaluateWithin room left
        let b ← evaluateWithin room right
        return (a, b)
      ofResult (applyBinary operator a b)
    | .unknown typeName => throw (.unsupported (.expression typeName))

/-- The value of an expression. -/
def evaluate (expr : Expr) : Exec Value :=
  evaluateWithin nestingLimit expr

/-- A computation in a new scope inside the current one, which is current again
afterwards however it ends. -/
def inNewScope (body : Exec Unit) : Exec Unit := fun machine =>
  let inner := machine.forest.size
  let forest := machine.forest.create (some machine.current)
  let message := "enter block at depth " ++ toString (forest.depth inner)
  let entered := { machine with forest, current := inner }.debug 2 message
  let (result, left) := body entered
  (result, { left with current := machine.current })

mutual

/-- Executes one statement. -/
def execute : Stmt → Exec Unit
  | .expression inner => do let _ ← evaluate inner
  | .print inner => do
    let value ← evaluate inner
    printValue value
  | .declare name none => defineVariable name .nil
  | .declare name (some initial) => do
    let value ← evaluate initial
    defineVariable name value
  | .block body => inNewScope (executeAll body)
  | .unknown typeName => throw (.unsupported (.statement typeName))

/-- Executes statements in turn. -/
def executeAll : List Stmt → Exec Unit
  | [] => return
  | first :: rest => do
    execute first
    executeAll rest

end

end Exec

end LoxLang
