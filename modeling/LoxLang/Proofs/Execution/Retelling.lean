import LoxLang.Proofs.Execution.Inheritance

/-!
Runs do not look at what has been told.

A change of the events of a machine, or of how much it tells, can be made before a run as well
as after it. Only a line that the debug channel refuses makes a difference: it stops no run that
would not have told it.
-/

namespace LoxLang

/-- A change of how much is told, and of what has been told, that goes event by event. -/
structure Retelling where
  level : Nat → Nat
  /-- The latest event stands first, before the change and after it. -/
  events : List Event → List Event
  level_le : ∀ own, level own ≤ own
  printed : ∀ text told, events (.printed text :: told) = .printed text :: events told
  noticed : ∀ notice told, events (.noticed notice :: told) = .noticed notice :: events told
  /-- A debug line that has been told is kept if it is told with the change as well. -/
  debugged : ∀ own depth message told, depth ≤ own →
    events (.debugged depth message :: told) =
      if depth ≤ level own then .debugged depth message :: events told else events told

/-- Whether a change hushes no machine altogether that tells of itself. -/
def Retelling.KeepsFirst (retelling : Retelling) : Prop :=
  ∀ own, 1 ≤ own → 1 ≤ retelling.level own

namespace Machine

/-- A machine whose events are changed. -/
def retold (retelling : Retelling) (machine : Machine) : Machine :=
  { machine with
    debugLevel := retelling.level machine.debugLevel
    events := retelling.events machine.events }

/-- A debug line is told or not, whether before the change or after it. -/
theorem retold_debug (retelling : Retelling) (machine : Machine) (level : Nat) (message : String) :
    (machine.debug level message).retold retelling =
      (machine.retold retelling).debug level message := by
  by_cases told : level ≤ machine.debugLevel
  · by_cases still : level ≤ retelling.level machine.debugLevel
    · simp [debug, retold, emit, told, still, retelling.debugged _ _ _ _ told]
    · simp [debug, retold, emit, told, still, retelling.debugged _ _ _ _ told]
  · -- What is not told is not told with the change either.
    have lower := retelling.level_le machine.debugLevel
    have untold : ¬level ≤ retelling.level machine.debugLevel := by omega
    simp [debug, retold, told, untold]

end Machine

namespace Exec

variable {α β : Type}

/-- Whether a result is any but that the debug channel refused a line. -/
def Unrefused (result : Except Halt α) : Prop :=
  ∀ blot, result ≠ .error (.unwritable .debug blot)

/--
Whether a computation does the same, with the same result, on a machine whose events are changed.

It need not if the debug channel refuses a line that would not be told with the change.
-/
def Retold (retelling : Retelling) (body : Exec α) : Prop :=
  ∀ machine, retelling.KeepsFirst ∨ Unrefused (body machine).1 →
    body (machine.retold retelling) = ((body machine).1, (body machine).2.retold retelling)

namespace Retold

variable {retelling : Retelling}

/-- A result alone is the same on every machine. -/
theorem ofResult (result : Except Halt α) : Retold retelling (Exec.ofResult result) := by
  intro machine _
  rw [ofResult_eq, ofResult_eq]

/-- Computations in turn do the same if each of them does. -/
theorem bind {first : Exec α} {next : α → Exec β} (same : Retold retelling first)
    (goesOn : ∀ value, Retold retelling (next value)) : Retold retelling (first >>= next) := by
  intro machine
  have started := same machine
  rw [bind_eq, bind_eq]
  rcases ran : first machine with ⟨result, after⟩
  rw [ran] at started
  intro heard
  -- The second computation starts from a machine whose events are changed already.
  cases result with
  | ok value =>
    rw [started (.inr fun _ => by rintro ⟨⟩)]
    exact goesOn value after heard
  | error halt =>
    have unrefused : retelling.KeepsFirst ∨ Unrefused (.error halt : Except Halt α) := by
      refine heard.imp_right fun told blot refused => told blot ?_
      rw [Except.error.inj refused]
    rw [started unrefused]

/-- Blame looks at the result only. -/
theorem blaming (mark : Mark) {body : Exec α} (same : Retold retelling body) :
    Retold retelling (Exec.blaming mark body) := by
  intro machine
  have started := same machine
  rw [blaming_eq, blaming_eq]
  rcases ran : body machine with ⟨result, after⟩
  rw [ran] at started
  intro heard
  -- Lack of room is no refusal, and every other result is passed on as it is.
  cases result with
  | ok value => rw [started heard]
  | error halt =>
    cases halt with
    | nestedTooDeeply => rw [started (.inr fun _ => by rintro ⟨⟩)]
    | failed | unsupported | unwritable => rw [started heard]

/-- A step of the machine does the same if the events can be changed before it as well. -/
theorem changing {change : Machine → Machine}
    (same : ∀ machine, change (machine.retold retelling) = (change machine).retold retelling) :
    Retold retelling (modify change : Exec Unit) := by
  intro machine _
  show (_, change (machine.retold retelling)) = _
  rw [same machine]
  rfl

/-- Variables are read from the scopes, not from what was told. -/
theorem readVariable (name : Mark) : Retold retelling (Exec.readVariable name) := by
  intro machine _
  rw [readVariable_eq, readVariable_eq]
  rfl

/-- Assignments change the scopes only. -/
theorem assignName (mark : Mark) (value : Value) :
    Retold retelling (Exec.assignName mark value) := by
  intro machine _
  have unchanged :
      (machine.retold retelling).forest.write (machine.retold retelling).current mark value =
        machine.forest.write machine.current mark value := rfl
  rw [assignName_eq, assignName_eq, unchanged]
  cases machine.forest.write machine.current mark value <;> rfl

/-- Definitions change the scopes only. -/
theorem bindName (mark : Mark) (value : Value) : Retold retelling (Exec.bindName mark value) :=
  (ofResult mark.name).bind fun _ => .changing fun _ => rfl

/-- A debug line is told or not, and only one that is told can be refused. -/
theorem tell (line : Text) : Retold retelling (Exec.tell 1 line) := by
  intro machine heard
  cases line with
  | plain message =>
    rw [tell_plain, tell_plain, Machine.retold_debug]
  | garbled text =>
    rw [tell_garbled] at heard ⊢
    rw [tell_garbled]
    by_cases told : 1 ≤ machine.debugLevel
    · -- The line is refused, so the change must not keep it from being told.
      have still : 1 ≤ (machine.retold retelling).debugLevel := by
        rcases heard with keeps | unrefused
        · exact keeps machine.debugLevel told
        · exact absurd (if_pos told) (unrefused _)
      rw [if_pos told, if_pos still]
    · have untold : ¬1 ≤ (machine.retold retelling).debugLevel := fun still =>
        told (Nat.le_trans still (retelling.level_le machine.debugLevel))
      rw [if_neg told, if_neg untold]

/-- A computation in a new scope does the same if it does so in any. -/
theorem inNewScope {body : Exec Unit} (same : Retold retelling body) :
    Retold retelling (Exec.inNewScope body) := by
  intro machine heard
  let forest := machine.forest.create (some machine.current)
  let message := "enter block at depth " ++ toString (forest.depth machine.forest.size)
  -- The debug line about the scope is told or not before the computation starts.
  have entered : (machine.retold retelling).entered message =
      (machine.entered message).retold retelling :=
    (Machine.retold_debug retelling { machine with forest, current := machine.forest.size } 2
      message).symm
  show ((body ((machine.retold retelling).entered message)).1,
      { (body ((machine.retold retelling).entered message)).2 with current := machine.current }) = _
  rw [entered, same (machine.entered message) heard]
  rfl

variable [Host]

/-- A value is told about in one debug line. -/
theorem mention (value : Value) (line : Text → Text) : Retold retelling (Exec.mention value line) :=
  (ofResult (shown value)).bind fun _ => tell _

/-- Writing a variable tells one debug line. -/
theorem writeVariable (mark : Mark) (value : Value) :
    Retold retelling (Exec.writeVariable mark value) :=
  (assignName mark value).bind fun _ => mention value _

/-- Defining a variable tells one debug line, with the depth of the scope that gets it. -/
theorem defineVariable (mark : Mark) (value : Value) :
    Retold retelling (Exec.defineVariable mark value) := by
  refine (bindName mark value).bind fun _ machine => ?_
  -- The depth is that of a scope, which the change leaves alone.
  rw [get_bind_eq, get_bind_eq]
  exact mention value (definitionLine mark (machine.forest.depth machine.current)) machine

/-- Printing adds one event, if the channel takes the text. -/
theorem printValue (value : Value) : Retold retelling (Exec.printValue value) := by
  refine (ofResult (shown value)).bind fun text => ?_
  cases text with
  | garbled text => exact ofResult (.error (.unwritable .output (Glyph.blot text.glyphs)))
  | plain text =>
    refine changing fun machine => ?_
    rw [Machine.retold, Machine.retold, Machine.emit, Machine.emit, retelling.printed]

end Retold

variable (retelling : Retelling) [Host]

/-- Runs do not look at what has been told, as none of their operations does. -/
theorem retold_inherited : Inherited id fun (_ : Unit) {_} => Retold retelling where
  ofResult _ := Retold.ofResult
  bind _ := Retold.bind
  blaming _ := Retold.blaming
  readVariable _ := Retold.readVariable
  printValue _ := Retold.printValue
  defineVariable _ := Retold.defineVariable
  inNewScope _ _ := Retold.inNewScope

/-- Executing any statements does the same, whatever has been told. -/
theorem retold_executeAll (program : List Stmt) : Retold retelling (executeAll program) :=
  (retold_inherited retelling).executeAll () program (fun mark _ _ => Retold.writeVariable mark)
    fun _ _ mark _ => Retold.defineVariable mark

end Exec

end LoxLang
