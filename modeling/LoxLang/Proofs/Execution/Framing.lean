import LoxLang.Proofs.Execution.Inheritance
import LoxLang.Proofs.Execution.Runs
import LoxLang.Proofs.Scope.Visibility

/-!
What a statement leaves alone: names that it does not declare, and values that it does not assign.
-/

namespace LoxLang

/-- Whether a name is what one of the marks stands for. -/
def Name.Among (name : Name) (marks : List Mark) : Prop :=
  ∃ mark ∈ marks, mark.name = .ok name

/--
Whether a run from one machine to another assigns given names only, and declares given names only.

This is said of the scopes that were there before the run; what it does in scopes of
its own does not matter.
-/
structure Machine.Frames (assigned declared : Name → Prop) (before after : Machine) : Prop where
  current_eq : after.current = before.current
  size_le : before.forest.size ≤ after.forest.size
  names : ∀ scope, scope < before.forest.size → ∀ name, (scope = before.current → ¬declared name) →
    (after.forest.bindingsOf scope).binds name = (before.forest.bindingsOf scope).binds name
  values : ∀ scope, scope < before.forest.size → ∀ name, ¬assigned name →
    (scope = before.current → ¬declared name) →
    (after.forest.bindingsOf scope).get? name = (before.forest.bindingsOf scope).get? name

namespace Machine.Frames

variable {assigned declared : Name → Prop} {before between after machine : Machine}

/-- A run that touches neither the forest nor the current scope leaves all as it is. -/
theorem of_eq (forest : after.forest = before.forest) (current : after.current = before.current) :
    Frames assigned declared before after := by
  refine ⟨current, Nat.le_of_eq (by rw [forest]), ?_, ?_⟩
  · intro scope _ name _
    rw [forest]
  · intro scope _ name _ _
    rw [forest]

/-- What two runs leave alone, they leave alone one after the other. -/
theorem trans (first : Frames assigned declared before between)
    (second : Frames assigned declared between after) :
    Frames assigned declared before after := by
  refine ⟨by rw [second.current_eq, first.current_eq],
    Nat.le_trans first.size_le second.size_le, ?_, ?_⟩
  · -- The second run starts in the same scope, so it may declare the same names there.
    intro scope inside name free
    rw [second.names scope (Nat.lt_of_lt_of_le inside first.size_le) name
      (by rwa [first.current_eq]), first.names scope inside name free]
  · intro scope inside name unassigned free
    rw [second.values scope (Nat.lt_of_lt_of_le inside first.size_le) name unassigned
      (by rwa [first.current_eq]), first.values scope inside name unassigned free]

/-- Assigning one of the names binds no new one. -/
theorem assign {name : Name} {owner : Nat} (known : assigned name)
    (found : machine.forest.owner? machine.current name = some owner) (value : Value) :
    Frames assigned declared machine
      { machine with forest := machine.forest.define owner name value } := by
  refine ⟨rfl, Nat.le_of_eq (Forest.size_define ..).symm, ?_, ?_⟩
  · -- The owner binds the name already.
    intro scope _ other _
    exact Forest.binds_define_of_binds (Forest.owner?_spec found).2 value scope other
  · intro scope _ other unassigned _
    apply Forest.get?_bindingsOf_define
    rintro ⟨rfl, _⟩
    exact unassigned known

/-- Declaring one of the names changes nothing but what it is bound to in the current scope. -/
theorem define {name : Name} (known : declared name) (value : Value) :
    Frames assigned declared machine
      { machine with forest := machine.forest.define machine.current name value } := by
  -- In the current scope only names that are not declared are asked for, so none of
  -- them is this one.
  have kept (scope : Nat) (other : Name) (free : scope = machine.current → ¬declared other) :
      ((machine.forest.define machine.current name value).bindingsOf scope).get? other =
        (machine.forest.bindingsOf scope).get? other := by
    apply Forest.get?_bindingsOf_define
    rintro ⟨rfl, here⟩
    exact free here known
  refine ⟨rfl, Nat.le_of_eq (Forest.size_define ..).symm, ?_, ?_⟩
  · intro scope _ other free
    rw [Bindings.binds, Bindings.binds, kept scope other free]
  · intro scope _ other _ free
    exact kept scope other free

/-- Whatever is declared in a new scope, the scopes that were there before keep their names. -/
theorem visit {inner : Name → Prop} {message : String}
    (frames : Frames assigned inner (machine.entered message) after) :
    Frames assigned declared machine { after with current := machine.current } := by
  -- The new scope is none of the old ones, so what may be declared in it does not matter to them.
  have old {scope : Nat} (inside : scope < machine.forest.size) :
      scope < (machine.entered message).forest.size ∧
        scope ≠ (machine.entered message).current := by
    rw [forest_entered, Forest.size_create, current_entered]
    omega
  refine ⟨rfl, ?_, ?_, ?_⟩
  · have grown := frames.size_le
    rw [forest_entered, Forest.size_create] at grown
    exact Nat.le_of_succ_le grown
  · intro scope inside name _
    rw [frames.names scope (old inside).1 name fun same => absurd same (old inside).2,
      forest_entered, Forest.bindingsOf_create]
  · intro scope inside name unassigned _
    rw [frames.values scope (old inside).1 name unassigned fun same => absurd same (old inside).2,
      forest_entered, Forest.bindingsOf_create]

end Machine.Frames

namespace Exec

variable {α β : Type} {assigned declared : Name → Prop}

/-- Whether a computation assigns given names only, and declares given names only,
however it ends. -/
def Framed (assigned declared : Name → Prop) (body : Exec α) : Prop :=
  ∀ machine : Machine, Machine.Frames assigned declared machine (body machine).2

namespace Framed

/-- A result alone changes nothing. -/
theorem ofResult (result : Except Halt α) : Framed assigned declared (Exec.ofResult result) := by
  intro machine
  rw [ofResult_eq]
  exact .of_eq rfl rfl

/-- One computation after another changes no more than both do. -/
theorem bind {first : Exec α} {next : α → Exec β} (framed : Framed assigned declared first)
    (goesOn : ∀ value, Framed assigned declared (next value)) :
    Framed assigned declared (first >>= next) := by
  intro machine
  have frames := framed machine
  rw [bind_eq]
  rcases ran : first machine with ⟨result, after⟩
  rw [ran] at frames
  -- After a halt, what the first computation did is all that was done.
  cases result with
  | ok value => exact frames.trans (goesOn value after)
  | error halt => exact frames

/-- Blame changes the result only. -/
theorem blaming (mark : Mark) {body : Exec α} (framed : Framed assigned declared body) :
    Framed assigned declared (Exec.blaming mark body) := by
  intro machine
  rw [snd_blaming]
  exact framed machine

/-- Reading a variable changes nothing. -/
theorem readVariable (mark : Mark) : Framed assigned declared (Exec.readVariable mark) := by
  intro machine
  rw [readVariable_eq]
  exact .of_eq rfl rfl

section

variable [Host]

/-- Telling about a value changes no scope. -/
theorem mention (value : Value) (line : Text → Text) :
    Framed assigned declared (Exec.mention value line) := by
  intro machine
  obtain ⟨events, same⟩ := exists_snd_mention value line machine
  rw [same]
  exact .of_eq rfl rfl

/-- Printing changes no scope. -/
theorem printValue (value : Value) : Framed assigned declared (Exec.printValue value) := by
  intro machine
  rcases printValue_cases value machine with ⟨text, same⟩ | ⟨halt, same⟩
  · rw [same]
    exact .of_eq rfl rfl
  · rw [same]
    exact .of_eq rfl rfl

/-- Writing a variable assigns its name, if it has one and that is bound. -/
theorem writeVariable {mark : Mark} (known : ∀ name, mark.name = .ok name → assigned name)
    (value : Value) :
    Framed assigned declared (Exec.writeVariable mark value) := by
  intro machine
  cases named : mark.name with
  | error halt =>
    -- What has no name cannot be written, and the machine stays as it is.
    rw [writeVariable_eq, Forest.write, named]
    exact .of_eq rfl rfl
  | ok name =>
    rw [writeVariable_of_name named]
    cases found : machine.forest.owner? machine.current name with
    | none => exact .of_eq rfl rfl
    | some owner => exact .trans (.assign (known name named) found value) (mention value _ _)

/-- Defining a variable declares its name, if it has one. -/
theorem defineVariable {mark : Mark} (known : ∀ name, mark.name = .ok name → declared name)
    (value : Value) :
    Framed assigned declared (Exec.defineVariable mark value) := by
  intro machine
  obtain ⟨depth, same⟩ := defineVariable_eq mark value machine
  rw [same]
  cases named : mark.name with
  | error halt => exact .of_eq rfl rfl
  | ok name => exact .trans (.define (known name named) value) (mention value _ _)

end

/-- A computation in a new scope may declare anything there. -/
theorem inNewScope {inner : Name → Prop} {body : Exec Unit} (framed : Framed assigned inner body) :
    Framed assigned declared (Exec.inNewScope body) := by
  intro machine
  obtain ⟨message, same⟩ := inNewScope_eq body machine
  rw [same]
  exact .visit (framed _)

end Framed

/-- What a run assigns to, each of its operations assigns to; what is declared in a scope of
its own does not matter. -/
theorem framed_inherited [Host] :
    Inherited (fun _ _ => True) fun declared {_} => Framed assigned declared where
  ofResult _ := Framed.ofResult
  bind _ := Framed.bind
  blaming _ := Framed.blaming
  readVariable _ := Framed.readVariable
  printValue _ := Framed.printValue
  defineVariable _ _ := Framed.defineVariable fun _ _ => trivial
  inNewScope _ _ := Framed.inNewScope

/-- A statement assigns its targets only, and declares its own name only. -/
theorem framed_execute [Host] (stmt : Stmt)
    (known : ∀ name, name.Among stmt.targets → assigned name)
    (own : ∀ mark, stmt.declared? = some mark → ∀ name, mark.name = .ok name → declared name) :
    Framed assigned declared (execute stmt) := by
  refine framed_inherited.execute declared stmt ?_ fun mark declares =>
    Framed.defineVariable (own mark declares)
  exact fun mark member _ => Framed.writeVariable fun name named => known name ⟨mark, member, named⟩

/--
The frame of a statement, whatever tree it is, wherever it is executed and however it ends.

Afterwards the same scope is current, and every other scope that was there binds the same names.
So does the current scope, unless the statement is a declaration, which may add its own name there.
Every binding keeps its value, unless the statement assigns to its name, or declares its
name in the current scope.
-/
theorem execute_leaves_the_rest_alone [Host] (stmt : Stmt) (machine : Machine)
    (inside : machine.current < machine.forest.size) :
    ∃ result after, execute stmt machine = (result, after) ∧ after.current = machine.current ∧
      (∀ scope, scope < machine.forest.size → scope ≠ machine.current → ∀ name,
        (after.forest.bindingsOf scope).binds name = (machine.forest.bindingsOf scope).binds name) ∧
      (stmt.declared? = none → ∀ name,
        (after.forest.bindingsOf machine.current).binds name =
          (machine.forest.bindingsOf machine.current).binds name) ∧
      (∀ mark, stmt.declared? = some mark → ∀ name,
        ((machine.forest.bindingsOf machine.current).binds name →
          (after.forest.bindingsOf machine.current).binds name) ∧
        ((after.forest.bindingsOf machine.current).binds name →
          (machine.forest.bindingsOf machine.current).binds name ∨ mark.name = .ok name)) ∧
      ∀ scope, scope < machine.forest.size → ∀ name, ¬name.Among stmt.targets →
        (scope = machine.current → ∀ mark, stmt.declared? = some mark → mark.name ≠ .ok name) →
          (after.forest.bindingsOf scope).get? name =
            (machine.forest.bindingsOf scope).get? name := by
  have framed : Framed (·.Among stmt.targets)
      (fun name => ∃ mark, stmt.declared? = some mark ∧ mark.name = .ok name) (execute stmt) :=
    framed_execute stmt (fun _ known => known) fun mark own name named => ⟨mark, own, named⟩
  have frames := framed machine
  have leads := leading_execute stmt machine
  refine ⟨_, _, rfl, frames.current_eq, ?_, ?_, ?_, ?_⟩
  · intro scope there other name
    exact frames.names scope there name fun same => absurd same other
  · intro undeclared name
    refine frames.names _ inside name fun _ ⟨mark, own, _⟩ => ?_
    rw [undeclared] at own
    cases own
  · intro mark own name
    refine ⟨leads.binds, fun bound => ?_⟩
    by_cases named : mark.name = .ok name
    · exact .inr named
    · -- Under any other name, nothing was added.
      refine .inl ?_
      rwa [← frames.names _ inside name fun _ ⟨other, alsoOwn, otherNamed⟩ => ?_]
      rw [own] at alsoOwn
      cases alsoOwn
      exact named otherNamed
  · intro scope there name unassigned undeclared
    exact frames.values scope there name unassigned fun same ⟨mark, own, named⟩ =>
      undeclared same mark own named

/-- A block that declares a variable of an outer name, assigns to another outer variable,
and fails in the end. -/
def intruding : Stmt :=
  let word (text : String) : Mark := .token { kind := .identifier, lexeme := text }
  .block [.declare (word "x") (some (.assign (word "y") (.literal .nil))), .print (.use (word "z"))]

/-- From a scope inside another, the block fails; it has changed the outer variable that it
assigns to, and no other. -/
theorem execute_leaves_the_rest_alone_intruding :
    let machine : Machine :=
      { forest :=
        { scopes := #[{ bindings := [(.word "x", .string "far"), (.word "y", .string "old")] },
          { parent := some 0 }] }
        current := 1 }
    ∃ after,
      execute intruding machine =
        (.error (.failed
          { blamed := .token { kind := .identifier, lexeme := "z" },
            fault := .undefinedVariable "z" }), after) ∧
      after.current = 1 ∧ (∀ name, (after.forest.bindingsOf 1).binds name = false) ∧
      (after.forest.bindingsOf 0).get? (.word "x") = some (.string "far") ∧
      (after.forest.bindingsOf 0).get? (.word "y") = some .nil := by
  intro machine
  obtain ⟨result, after, ran, current, _, undeclared, _, values⟩ :=
    execute_leaves_the_rest_alone intruding machine (by decide)
  have fails : (execute intruding machine).1 =
      .error (.failed
        { blamed := .token { kind := .identifier, lexeme := "z" },
          fault := .undefinedVariable "z" }) := by
    with_unfolding_all rfl
  have assigns : ((execute intruding machine).2.forest.bindingsOf 0).get? (.word "y") =
      some .nil := by with_unfolding_all rfl
  rw [ran] at fails assigns
  refine ⟨after, ran.trans (congrArg (·, after) fails), current, undeclared rfl, ?_, assigns⟩
  -- The name is declared inside the block only, and assigned to nowhere.
  refine values 0 (by decide) (.word "x") ?_ fun same => absurd same (by decide)
  rintro ⟨mark, member, named⟩
  cases List.mem_singleton.mp member
  exact absurd (Except.ok.inj named) (by decide)

end Exec

end LoxLang
