import LoxLang.Proofs.Execution.Runs
import LoxLang.Proofs.Scope.Stack

/-! What a machine sees of its forest, and how runs change it. -/

namespace LoxLang

namespace Machine

/-- The scopes that a machine sees from where it is. -/
def stack (machine : Machine) : Sight :=
  machine.forest.stack machine.current

/-- A machine sees the scope that it is in. -/
theorem exists_stack (machine : Machine) : ∃ own outer, machine.stack = own :: outer :=
  ⟨_, _, by rw [stack, Forest.stack]⟩

/-- A debug line changes nothing that is seen. -/
@[simp] theorem stack_debug (machine : Machine) (level : Nat) (message : String) :
    (machine.debug level message).stack = machine.stack := by
  simp [stack]

section

variable {machine left : Machine} {message : String}

/-- A machine that leaves a scope has no fewer scopes than before it. -/
theorem size_le_of_leads_entered (leads : Leads (machine.entered message) left) :
    machine.forest.size ≤ left.forest.size := by
  have grown := leads.size_le
  rw [forest_entered, Forest.size_create] at grown
  omega

variable (inside : machine.current < machine.forest.size)

include inside

/-- A machine that enters a scope sees it empty. -/
theorem stack_entered : (machine.entered message).stack = ∅ :: machine.stack := by
  rw [stack, forest_entered, current_entered, Forest.stack_create_size inside, stack]

/-- A machine that leaves a scope sees all the others as before. -/
theorem stack_of_leads_entered (leads : Leads (machine.entered message) left) :
    left.stack =
      (left.forest.bindingsOf machine.forest.size).toEnv ::
        { left with current := machine.current }.stack := by
  -- The new scope still stands inside the old one.
  have newest : machine.forest.size < (machine.entered message).forest.size := by simp
  have up : left.forest.parentOf? machine.forest.size = some ⟨machine.current, inside⟩ := by
    rw [leads.parentOf?_eq newest, forest_entered, Forest.parentOf?_create_size inside]
  rw [stack, leads.current_eq, current_entered, Forest.stack_of_parent up]
  rfl

end

end Machine

end LoxLang
