import LoxLang.Proofs.Execution.Laws
import LoxLang.Proofs.Tree.Moving

/-!
Programs with exchanged tokens run alike: nothing but the token that is blamed for a
runtime error differs.
-/

namespace LoxLang.Exec

variable {α β : Type} {change : Token → Token}

/--
How two computations end alike.

They give one result, or one fault, blamed on a token and on the one it was exchanged for,
or halt for one other reason.
-/
inductive EndsAlike (change : Token → Token) : Except Halt α → Except Halt α → Prop where
  | ok (value : α) : EndsAlike change (.ok value) (.ok value)
  | failed (token : Token) (fault : RuntimeFault) :
    EndsAlike change (.error (.failed { blamed := token, fault }))
      (.error (.failed { blamed := change token, fault }))
  | halted {halt : Halt} : (∀ error, halt ≠ .failed error) →
    EndsAlike change (.error halt) (.error halt)

/-- Without a runtime error, a result ends like itself. -/
theorem EndsAlike.refl {result : Except Halt α}
    (innocent : ∀ error, result ≠ .error (.failed error)) :
    EndsAlike change result result := by
  cases result with
  | ok value => exact .ok value
  | error halt => exact .halted fun error same => innocent error (congrArg Except.error same)

/-- Whether two computations do the same to every machine, and end alike. -/
def Tracks (change : Token → Token) (first second : Exec α) : Prop :=
  ∀ machine, (second machine).2 = (first machine).2 ∧
    EndsAlike change (first machine).1 (second machine).1

namespace Tracks

variable {first second : Exec α}

/-- A value is the same on both sides. -/
theorem pure (value : α) : Tracks change (Pure.pure value : Exec α) (Pure.pure value) :=
  fun _ => ⟨rfl, .ok value⟩

/-- Computations that go alike do so one after the other. -/
theorem bind {next other : α → Exec β} (tracks : Tracks change first second)
    (goesOn : ∀ value, Tracks change (next value) (other value)) :
    Tracks change (first >>= next) (second >>= other) := by
  intro machine
  obtain ⟨same, ends⟩ := tracks machine
  rw [bind_eq, bind_eq]
  rcases ran : first machine with ⟨result, after⟩
  rcases alsoRan : second machine with ⟨otherResult, otherAfter⟩
  rw [ran, alsoRan] at same ends
  obtain rfl : otherAfter = after := same
  -- Both reach what follows, with one value and from one machine, or neither does.
  cases ends with
  | ok value => exact goesOn value otherAfter
  | failed token fault => exact ⟨rfl, .failed token fault⟩
  | halted other => exact ⟨rfl, .halted other⟩

/-- Lack of room is blamed on a token and on the one it was exchanged for. -/
theorem blaming (token : Token) (tracks : Tracks change first second) :
    Tracks change (Exec.blaming token first) (Exec.blaming (change token) second) := by
  -- No other ending is changed by blame, so the two still end alike.
  intro machine
  obtain ⟨same, ends⟩ := tracks machine
  rw [blaming_eq, blaming_eq]
  rcases ran : first machine with ⟨result, after⟩
  rcases alsoRan : second machine with ⟨otherResult, otherAfter⟩
  rw [ran, alsoRan] at same ends
  obtain rfl : otherAfter = after := same
  cases ends with
  | ok value => exact ⟨rfl, .ok value⟩
  | failed blamed fault => exact ⟨rfl, .failed blamed fault⟩
  | @halted halt other =>
    cases halt with
    | nestedTooDeeply => exact ⟨rfl, .failed token .nestedTooDeeply⟩
    | failed | unsupported | unwritable => exact ⟨rfl, .halted other⟩

/-- Results that end alike are computations that do. -/
theorem ofResult {result other : Except Halt α} (ends : EndsAlike change result other) :
    Tracks change (Exec.ofResult result) (Exec.ofResult other) := by
  intro machine
  rw [ofResult_eq, ofResult_eq]
  exact ⟨rfl, ends⟩

/-- Computations that go alike do so in a new scope. -/
theorem inNewScope {first second : Exec Unit} (tracks : Tracks change first second) :
    Tracks change (Exec.inNewScope first) (Exec.inNewScope second) := by
  -- The scope does not depend on what is computed in it.
  intro machine
  obtain ⟨same, ends⟩ := tracks (machine.entered ("enter block at depth " ++
    toString ((machine.forest.create (some machine.current)).depth machine.forest.size)))
  exact ⟨congrArg (fun left : Machine => { left with current := machine.current }) same, ends⟩

section

variable [Host]

/-- One value is told about in one way. -/
theorem mention (value : Value) (line : Text → Text) :
    Tracks change (Exec.mention value line) (Exec.mention value line) := by
  intro machine
  refine ⟨rfl, .refl fun error failed => ?_⟩
  -- Neither lack of room nor a channel that refuses a line is a runtime error.
  rw [mention_eq] at failed
  cases isShown : shown value with
  | error halt =>
    rw [isShown] at failed
    have same : (.error halt : Except Halt Text) = .error (.failed error) :=
      congrArg Except.error (Except.error.inj failed)
    exact shown_ne_failed value error (isShown.trans same)
  | ok text =>
    simp only [isShown] at failed
    cases told : line (text ++ " (" ++ value.typeName ++ ")") with
    | plain message =>
      rw [told, tell_plain] at failed
      cases failed
    | garbled text =>
      rw [told, tell_garbled] at failed
      split at failed <;> cases failed

/-- One value is printed in one way. -/
theorem printValue (value : Value) :
    Tracks change (Exec.printValue value) (Exec.printValue value) := by
  intro machine
  refine ⟨rfl, .refl fun error failed => ?_⟩
  rw [printValue_eq] at failed
  -- Printing never fails for a fault in the program.
  cases isShown : shown value with
  | error halt =>
    rw [isShown] at failed
    have same : (.error halt : Except Halt Text) = .error (.failed error) :=
      congrArg Except.error (Except.error.inj failed)
    exact shown_ne_failed value error (isShown.trans same)
  | ok text =>
    rw [isShown] at failed
    cases text <;> cases failed

end

section

variable (keeps : KeepsMeaning change)

include keeps

/-- A variable is read under one name. -/
theorem readVariable (name : Token) :
    Tracks change (Exec.readVariable name) (Exec.readVariable (change name)) := by
  intro machine
  rw [readVariable_eq, readVariable_eq, Forest.read_token, Forest.read_token, (keeps name).2.1]
  -- The lookup goes by the word alone; only the token that an unknown word is blamed on differs.
  refine ⟨rfl, ?_⟩
  cases machine.forest.get? machine.current (.word name.lexeme) with
  | some value => exact .ok value
  | none => exact .failed name _

/-- A variable is written under one name. -/
theorem writeVariable [Host] (name : Token) (value : Value) :
    Tracks change (Exec.writeVariable name value) (Exec.writeVariable (change name) value) := by
  intro machine
  have lines : assignmentLine (change name) = assignmentLine name := by
    funext described
    rw [assignmentLine, assignmentLine, Mark.text_token, Mark.text_token, (keeps name).2.1]
  rw [writeVariable_eq, writeVariable_eq, Forest.write_token, Forest.write_token, lines,
    (keeps name).2.1]
  cases machine.forest.owner? machine.current (.word name.lexeme) with
  | some owner => exact mention value _ _
  | none => exact ⟨rfl, .failed name _⟩

/-- A variable is defined under one name. -/
theorem defineVariable [Host] (name : Token) (value : Value) :
    Tracks change (Exec.defineVariable name value) (Exec.defineVariable (change name) value) := by
  -- A definition blames nothing on its token, so nothing of it is left to differ.
  have lines (depth : Nat) : definitionLine (change name) depth = definitionLine name depth := by
    funext described
    rw [definitionLine, definitionLine, Mark.text_token, Mark.text_token, (keeps name).2.1]
  have same : Exec.defineVariable (change name) value = Exec.defineVariable name value := by
    simp only [Exec.defineVariable, bindName, Mark.name_token, lines, (keeps name).2.1]
  rw [same]
  intro machine
  obtain ⟨depth, told⟩ := defineVariable_eq name value machine
  rw [told, Mark.name_token]
  exact mention value _ _

end

end Tracks

section

variable {operator : Token}

/-- An operator on numbers makes the same of two values, or is blamed for the same fault. -/
theorem endsAlike_arithmetic (a b : Value) (result : Double → Double → Value) :
    EndsAlike change (arithmetic operator a b result)
      (arithmetic (change operator) a b result) := by
  unfold arithmetic
  split
  · exact .ok _
  · exact .failed operator _

/-- Addition makes the same of two values, or is blamed for the same fault. -/
theorem endsAlike_addition [Host] (a b : Value) :
    EndsAlike change (addition operator a b) (addition (change operator) a b) := by
  unfold addition
  split
  · exact .ok _
  · split
    · exact .ok _
    · exact .failed operator _

variable (keeps : KeepsMeaning change)

include keeps

/-- A prefix operator makes the same of a value, or is blamed for the same fault. -/
theorem endsAlike_applyUnary (a : Value) :
    EndsAlike change (applyUnary operator a) (applyUnary (change operator) a) := by
  rw [applyUnary, applyUnary, Mark.kind_token, Mark.kind_token, (keeps operator).1, Mark.text_token,
    Mark.text_token, (keeps operator).2.1]
  -- The kind of the operator decides, and of the operands only whether they are numbers.
  cases operator.kind with
  | minus =>
    cases a with
    | number x => exact .ok _
    | nil | bool | string | int | null | token | garbled | loaded => exact .failed operator _
  | bang => exact .ok _
  | _ => exact .halted (by rintro error ⟨⟩)

/-- A binary operator makes the same of two values, or is blamed for the same fault. -/
theorem endsAlike_applyBinary [Host] (a b : Value) :
    EndsAlike change (applyBinary operator a b) (applyBinary (change operator) a b) := by
  have comparison : ∀ error, compared a b ≠ .error (.failed error) := compared_ne_failed a b
  rw [applyBinary, applyBinary, Mark.kind_token, Mark.kind_token, (keeps operator).1,
    Mark.text_token, Mark.text_token, (keeps operator).2.1]
  -- The operator is looked at for its kind only, and blamed as it stands.
  cases operator.kind with
  | plus => exact endsAlike_addition a b
  | minus | star | slash | greater | greaterEqual | less | lessEqual =>
    exact endsAlike_arithmetic a b _
  | equalEqual | bangEqual =>
    cases same : compared a b with
    | ok truth => exact .ok _
    | error halt => exact .halted fun error is => comparison error (by rw [same, is])
  | _ => exact .halted (by rintro error ⟨⟩)

variable {tokens : Token → Prop} {values : Value → Prop}

/-- An expression with exchanged tokens is evaluated alike. -/
theorem tracks_evaluateWithin [Host] {e : Expr} (made : e.MadeOf tokens values) (room : Nat) :
    Tracks change (evaluateWithin room e) (evaluateWithin room (e.mapTokens change)) := by
  induction room generalizing e with
  | zero => exact .ofResult (.halted (by rintro error ⟨⟩))
  | succ room ih =>
    -- Every form but parentheses blames the lack of room of its operands on a token of its own.
    cases made with
    | literal => exact .pure _
    | grouping inner => exact ih inner
    | use => exact .readVariable keeps _
    | assign _ value =>
      refine (Tracks.blaming _ (ih value)).bind fun value => ?_
      exact (Tracks.writeVariable keeps _ value).bind fun _ => .pure value
    | unary _ isPrefix operand =>
      refine (Tracks.blaming _ (ih operand)).bind fun operand => ?_
      exact .ofResult (endsAlike_applyUnary keeps operand)
    | @binary left right _ _ leftMade _ isBinary rightMade =>
      -- Both operands may be too deep, and the operator is blamed for either.
      have operands : Tracks change
          (do
            let a ← evaluateWithin room left
            let b ← evaluateWithin room right
            return (a, b))
          (do
            let a ← evaluateWithin room (left.mapTokens change)
            let b ← evaluateWithin room (right.mapTokens change)
            return (a, b)) :=
        (ih leftMade).bind fun a => (ih rightMade).bind fun b => .pure (a, b)
      refine (Tracks.blaming _ operands).bind fun operands => ?_
      exact .ofResult (endsAlike_applyBinary keeps operands.1 operands.2)

omit keeps in
/-- Statements with exchanged tokens are executed alike if each of them is. -/
theorem tracks_executeAll_of_forall [Host] {program : List Stmt}
    (each : ∀ stmt ∈ program, Tracks change (execute stmt) (execute (stmt.mapTokens change))) :
    Tracks change (executeAll program) (executeAll (Stmt.mapAllTokens change program)) := by
  induction program with
  | nil => exact .pure ()
  | cons first rest ih =>
    rw [Stmt.mapAllTokens, executeAll, executeAll]
    exact (each first (by simp)).bind fun _ => ih fun stmt member => each stmt (by simp [member])

/-- A statement with exchanged tokens is executed alike. -/
theorem tracks_execute [Host] {stmt : Stmt} (made : stmt.MadeOf tokens values) :
    Tracks change (execute stmt) (execute (stmt.mapTokens change)) := by
  -- The induction is on what the statement is made of, so the statements of a block
  -- are known already.
  induction made with
  | expression inner =>
    rw [Stmt.mapTokens, execute, execute]
    exact (tracks_evaluateWithin keeps inner nestingLimit).bind fun _ => .pure ()
  | print inner =>
    rw [Stmt.mapTokens, execute, execute]
    exact (tracks_evaluateWithin keeps inner nestingLimit).bind fun value => .printValue value
  | declare =>
    rw [Stmt.mapTokens, execute, Mark.mapToken, execute]
    exact .defineVariable keeps _ _
  | declareAs _ initial =>
    rw [Stmt.mapTokens, execute, Mark.mapToken, execute]
    exact (tracks_evaluateWithin keeps initial nestingLimit).bind fun value =>
      .defineVariable keeps _ value
  | block _ ih =>
    rw [Stmt.mapTokens, execute, execute]
    exact .inNewScope (tracks_executeAll_of_forall ih)

/-- A program with exchanged tokens is executed alike. -/
theorem tracks_executeAll [Host] {program : List Stmt}
    (made : ∀ stmt ∈ program, stmt.MadeOf tokens values) :
    Tracks change (executeAll program) (executeAll (Stmt.mapAllTokens change program)) :=
  tracks_executeAll_of_forall fun stmt member => tracks_execute keeps (made stmt member)

end

end LoxLang.Exec
