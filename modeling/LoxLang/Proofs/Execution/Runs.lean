import LoxLang.Proofs.Execution.Inheritance
import LoxLang.Proofs.Scope.Forest

/-! What a run can do to its machine, one small change after another. -/

namespace LoxLang

/-- The report that an event puts on the error channel. -/
def Event.notice? : Event → Option Notice
  | noticed notice => some notice
  | printed _ | debugged .. => none

/-- The text that an event puts on the output channel. -/
def Event.text? : Event → Option String
  | printed text => some text
  | noticed _ | debugged .. => none

namespace Machine

/-- The reports on the error channel, the latest first. -/
def notices (machine : Machine) : List Notice :=
  machine.events.filterMap Event.notice?

/-- The texts on the output channel, the latest first. -/
def texts (machine : Machine) : List String :=
  machine.events.filterMap Event.text?

/-- A debug line puts nothing on the output channel. -/
@[simp] theorem texts_debug (machine : Machine) (level : Nat) (message : String) :
    (machine.debug level message).texts = machine.texts := by
  unfold debug
  split <;> rfl

/-- A debug line is no report. -/
@[simp] theorem notices_debug (machine : Machine) (level : Nat) (message : String) :
    (machine.debug level message).notices = machine.notices := by
  unfold debug
  split <;> rfl

/--
Whether a run can lead from one machine to another.

A run prints, tells about itself, binds names in its scope or those around it, and enters
scopes that it leaves again.
-/
inductive Leads : Machine → Machine → Prop where
  | stay (machine : Machine) : Leads machine machine
  | andThen {first second third : Machine} : Leads first second → Leads second third →
    Leads first third
  | print (machine : Machine) (text : String) : Leads machine (machine.emit (.printed text))
  | debug (machine : Machine) (level : Nat) (message : String) :
    Leads machine (machine.debug level message)
  | define (machine : Machine) (name : Name) (value : Value) :
    Leads machine { machine with forest := machine.forest.define machine.current name value }
  | assign {machine : Machine} {name : Name} {owner : Nat} (value : Value) :
    machine.forest.owner? machine.current name = some owner →
      Leads machine { machine with forest := machine.forest.define owner name value }
  | visit {machine left : Machine} :
    Leads
        { machine with
          forest := machine.forest.create (some machine.current)
          current := machine.forest.size }
        left →
      Leads machine { left with current := machine.current }

namespace Leads

variable {before after : Machine}

/-- A run reports nothing. -/
theorem notices_eq (leads : Leads before after) : after.notices = before.notices := by
  -- No step of a run adds a report; that is left to the session around it.
  induction leads with
  | stay | print | define | assign => rfl
  | andThen _ _ first second => rw [second, first]
  | debug => exact notices_debug ..
  | visit _ ih => exact ih

/-- A run ends in the scope it started in. -/
theorem current_eq (leads : Leads before after) : after.current = before.current := by
  -- A visit to another scope says where it came from.
  induction leads with
  | stay | print | define | assign | visit => rfl
  | andThen _ _ first second => rw [second, first]
  | debug => exact current_debug ..

/-- A run does not change how much it tells. -/
theorem debugLevel_eq (leads : Leads before after) : after.debugLevel = before.debugLevel := by
  induction leads with
  | stay | print | define | assign => rfl
  | andThen _ _ first second => rw [second, first]
  | debug => exact debugLevel_debug ..
  | visit _ ih => exact ih

/-- A run removes no scope. -/
theorem size_le (leads : Leads before after) : before.forest.size ≤ after.forest.size := by
  induction leads with
  | stay | print => exact Nat.le_refl _
  | andThen _ _ first second => exact Nat.le_trans first second
  | debug => exact Nat.le_of_eq (by rw [forest_debug])
  | define | assign => exact Nat.le_of_eq (by rw [Forest.size_define])
  | visit _ ih =>
    -- The scope that was visited stays behind in the forest.
    rw [Forest.size_create] at ih
    exact Nat.le_of_succ_le ih

/-- A run unbinds no name in any scope. -/
theorem binds (leads : Leads before after) {scope : Nat} {name : Name}
    (bound : (before.forest.bindingsOf scope).binds name) :
    (after.forest.bindingsOf scope).binds name := by
  induction leads with
  | stay | print => exact bound
  | andThen _ _ first second => exact second (first bound)
  | debug => rwa [forest_debug]
  | define | assign => exact Forest.binds_define _ _ _ bound
  | visit _ ih =>
    -- The scope that is entered takes no name from the others.
    exact ih (by rwa [Forest.bindingsOf_create])

/-- A run leaves every scope where it is. -/
theorem parentOf?_eq (leads : Leads before after) {scope : Nat}
    (inside : scope < before.forest.size) :
    after.forest.parentOf? scope = before.forest.parentOf? scope := by
  induction leads with
  | stay | print => rfl
  | andThen earlier _ first second =>
    rw [second (Nat.lt_of_lt_of_le inside earlier.size_le), first inside]
  | debug => rw [forest_debug]
  | define | assign => exact Forest.parentOf?_define ..
  | visit _ ih =>
    -- The new scope gets a number that none of the others has.
    rw [ih (by rw [Forest.size_create]; exact Nat.lt_succ_of_lt inside)]
    exact Forest.parentOf?_create_of_lt _ inside

end Leads

end Machine

namespace Exec

variable {α β : Type}

/-- Whether a computation does nothing to a machine but what a run can do. -/
def Leading (body : Exec α) : Prop :=
  ∀ machine : Machine, machine.Leads (body machine).2

namespace Leading

/-- A result alone leaves the machine as it is. -/
theorem ofResult (result : Except Halt α) : Leading (Exec.ofResult result) := by
  intro machine
  rw [ofResult_eq]
  exact .stay machine

/-- One computation after another leads where both lead. -/
theorem bind {first : Exec α} {next : α → Exec β} (leading : Leading first)
    (goesOn : ∀ value, Leading (next value)) :
    Leading (first >>= next) := by
  -- A halt leads as far as the first computation came.
  intro machine
  have leads := leading machine
  rw [bind_eq]
  rcases ran : first machine with ⟨result, after⟩
  rw [ran] at leads
  cases result with
  | ok value => exact leads.andThen (goesOn value after)
  | error halt => exact leads

/-- Blame changes the result only. -/
theorem blaming (mark : Mark) {body : Exec α} (leading : Leading body) :
    Leading (Exec.blaming mark body) := by
  intro machine
  rw [snd_blaming]
  exact leading machine

/-- Reading a variable leaves the machine as it is. -/
theorem readVariable (mark : Mark) : Leading (Exec.readVariable mark) := by
  intro machine
  rw [readVariable_eq]
  exact .stay machine

/-- Telling about a value adds a debug line at most. -/
theorem mention [Host] (value : Value) (line : Text → Text) :
    Leading (Exec.mention value line) := by
  intro machine
  rcases mention_cases value line machine with ⟨message, same⟩ | same | ⟨halt, same⟩
  · rw [same]
    exact .debug ..
  · rw [same]
    exact .stay machine
  · rw [same]
    exact .stay machine

/-- Printing a value prints one text at most. -/
theorem printValue [Host] (value : Value) : Leading (Exec.printValue value) := by
  intro machine
  rcases printValue_cases value machine with ⟨text, same⟩ | ⟨halt, same⟩
  · rw [same]
    exact .print machine text
  · rw [same]
    exact .stay machine

/-- Writing a variable binds its name where it is bound. -/
theorem writeVariable [Host] (mark : Mark) (value : Value) :
    Leading (Exec.writeVariable mark value) := by
  intro machine
  rw [writeVariable_eq]
  cases written : machine.forest.write machine.current mark value with
  | error halt => exact .stay machine
  | ok changed =>
    obtain ⟨name, owner, found, rfl⟩ := Forest.exists_owner_of_write written
    exact (Machine.Leads.assign value found).andThen (mention value _ _)

/-- Defining a variable binds its name in the current scope. -/
theorem defineVariable [Host] (mark : Mark) (value : Value) :
    Leading (Exec.defineVariable mark value) := by
  intro machine
  obtain ⟨depth, same⟩ := defineVariable_eq mark value machine
  rw [same]
  cases mark.name with
  | error halt => exact .stay machine
  | ok name => exact (Machine.Leads.define machine name value).andThen (mention value _ _)

/-- A computation in a new scope visits it. -/
theorem inNewScope {body : Exec Unit} (leading : Leading body) :
    Leading (Exec.inNewScope body) := by
  intro machine
  obtain ⟨message, same⟩ := inNewScope_eq body machine
  rw [same]
  exact .visit ((Machine.Leads.debug ..).andThen (leading _))

end Leading

variable [Host]

/-- Runs do what their operations do, in whatever scope. -/
theorem leading_inherited : Inherited id fun (_ : Unit) {_} => Leading where
  ofResult _ := Leading.ofResult
  bind _ := Leading.bind
  blaming _ := Leading.blaming
  readVariable _ := Leading.readVariable
  printValue _ := Leading.printValue
  defineVariable _ := Leading.defineVariable
  inNewScope _ _ := Leading.inNewScope

/-- Evaluating any expression leads somewhere. -/
theorem leading_evaluateWithin (room : Nat) (e : Expr) : Leading (evaluateWithin room e) :=
  leading_inherited.evaluateWithin () (fun mark _ => Leading.writeVariable mark) room

/-- Executing any statement leads somewhere. -/
theorem leading_execute (stmt : Stmt) : Leading (execute stmt) :=
  -- This holds of trees that no source text has as well, as far as the run gets.
  leading_inherited.execute () stmt (fun mark _ _ => Leading.writeVariable mark) fun mark _ =>
    Leading.defineVariable mark

/-- Executing any statements leads somewhere. -/
theorem leading_executeAll (program : List Stmt) : Leading (executeAll program) :=
  leading_inherited.executeAll () program (fun mark _ _ => Leading.writeVariable mark)
    fun _ _ mark _ => Leading.defineVariable mark

end Exec

end LoxLang
