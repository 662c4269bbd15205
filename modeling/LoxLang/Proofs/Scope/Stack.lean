import LoxLang.Proofs.Reference.Scopes
import LoxLang.Proofs.Scope.Forest

/-! What a forest looks like from one of its scopes: a stack of scopes, the innermost first. -/

namespace LoxLang

/-- What is seen from a scope: the scopes from it outwards, each as a map. -/
abbrev Sight := List (Reference.Env Value)

namespace Bindings

/-- Bindings as a map, in which their order does not matter. -/
def toEnv (bindings : Bindings) : Reference.Env Value :=
  (bindings.map fun pair => (⟨pair.1, pair.2⟩ : Sigma fun _ : Name => Value)).toFinmap

/-- A name is bound in the map to what it is bound to. -/
@[simp] theorem lookup_toEnv (bindings : Bindings) (name : Name) :
    bindings.toEnv.lookup name = bindings.get? name := by
  -- Both take the first binding of the name.
  rw [toEnv, Finmap.dlookup_list_toFinmap]
  induction bindings with
  | nil => rfl
  | cons first rest ih =>
    obtain ⟨other, old⟩ := first
    by_cases same : other = name
    · subst same
      simp [get?]
    · rw [List.map_cons, List.dlookup_cons_ne _ _ (Ne.symm same), ih]
      have differs : (name == other) = false := by simpa using Ne.symm same
      simp [get?, List.lookup_cons, differs]

/-- The map binds the names that are bound. -/
theorem mem_toEnv (bindings : Bindings) (name : Name) :
    name ∈ bindings.toEnv ↔ bindings.binds name := by
  rw [← Finmap.lookup_isSome, lookup_toEnv, binds]

/-- No bindings are the empty map. -/
@[simp] theorem toEnv_nil : toEnv [] = ∅ :=
  rfl

/-- Binding a name binds it in the map. -/
@[simp] theorem toEnv_set (bindings : Bindings) (name : Name) (value : Value) :
    toEnv (set name value bindings) = bindings.toEnv.insert name value := by
  -- Maps are one if they bind the same names to the same values.
  refine Finmap.ext_lookup fun other => ?_
  rw [lookup_toEnv, get?_set]
  by_cases same : other = name
  · rw [if_pos same, same, Finmap.lookup_insert]
  · rw [if_neg same, Finmap.lookup_insert_of_ne _ same, lookup_toEnv]

end Bindings

namespace Forest

/-- The scopes that are seen from one scope, from it outwards. -/
def stack (forest : Forest) (scope : Nat) : Sight :=
  (forest.bindingsOf scope).toEnv ::
    match forest.parentOf? scope with
    | some ⟨outer, _⟩ => forest.stack outer
    | none => []
termination_by scope

/-- From an inner scope, the outer ones are seen behind it. -/
theorem stack_of_parent {forest : Forest} {scope outer : Nat} {older : outer < scope}
    (up : forest.parentOf? scope = some ⟨outer, older⟩) :
    forest.stack scope = (forest.bindingsOf scope).toEnv :: forest.stack outer := by
  rw [stack, up]

/-- From an outermost scope, only that scope is seen. -/
theorem stack_of_no_parent {forest : Forest} {scope : Nat} (up : forest.parentOf? scope = none) :
    forest.stack scope = [(forest.bindingsOf scope).toEnv] := by
  rw [stack, up]

/-- From the first scope, only that scope is seen. -/
@[simp] theorem stack_root (bindings : Bindings) : (root bindings).stack 0 = [bindings.toEnv] :=
  stack_of_no_parent rfl

/-- Binding a name in a scope is not seen from older ones. -/
theorem stack_define_of_lt (forest : Forest) {scope other : Nat} (older : other < scope)
    (name : Name) (value : Value) :
    (forest.define scope name value).stack other = forest.stack other := by
  -- What is seen from a scope stands further out, and so is older still.
  induction other using Nat.strongRecOn with
  | ind other ih =>
    rw [stack, stack, bindingsOf_define, if_neg (by omega), parentOf?_define]
    cases forest.parentOf? other with
    | some outer => exact congrArg _ (ih outer.1 outer.2 (Nat.lt_trans outer.2 older))
    | none => rfl

/-- Binding a name in a scope is seen from it in the innermost place. -/
theorem stack_define_self {forest : Forest} {scope : Nat} (inside : scope < forest.size)
    (name : Name) (value : Value) :
    (forest.define scope name value).stack scope =
      (forest.bindingsOf scope).toEnv.insert name value :: (forest.stack scope).tail := by
  rw [stack, stack, bindingsOf_define, if_pos ⟨rfl, inside⟩, Bindings.toEnv_set, parentOf?_define,
    List.tail_cons]
  cases forest.parentOf? scope with
  | some outer => exact congrArg _ (stack_define_of_lt forest outer.2 name value)
  | none => rfl

/-- A new scope is not seen from the others. -/
theorem stack_create_of_lt {forest : Forest} {scope : Nat} (parent : Option Nat)
    (inside : scope < forest.size) :
    (forest.create parent).stack scope = forest.stack scope := by
  -- A scope stands inside older ones only, never inside the new one.
  induction scope using Nat.strongRecOn with
  | ind scope ih =>
    rw [stack, stack, bindingsOf_create, parentOf?_create_of_lt _ inside]
    cases forest.parentOf? scope with
    | some outer => exact congrArg _ (ih outer.1 outer.2 (Nat.lt_trans outer.2 inside))
    | none => rfl

/-- From a new scope, an empty one is seen in front of those around it. -/
theorem stack_create_size {forest : Forest} {outer : Nat} (older : outer < forest.size) :
    (forest.create (some outer)).stack forest.size = ∅ :: forest.stack outer := by
  rw [stack_of_parent (parentOf?_create_size older), bindingsOf_create,
    bindingsOf_of_size_le (Nat.le_refl _), Bindings.toEnv_nil, stack_create_of_lt _ older]

/-- A name is bound to what it is bound to on the stack. -/
theorem get?_eq_lookup? (forest : Forest) (scope : Nat) (name : Name) :
    forest.get? scope name = Reference.lookup? (forest.stack scope) name := by
  -- The search for the owner passes by the scopes that are seen, one by one.
  rw [get?]
  fun_induction owner? forest scope name with
  | case1 scope binds =>
    obtain ⟨value, bound⟩ := Option.isSome_iff_exists.mp binds
    rw [stack, Reference.lookup?, List.findSome?_cons, Bindings.lookup_toEnv, bound]
    exact bound
  | case2 scope free outer older up ih =>
    have unbound : (forest.bindingsOf scope).get? name = none := by
      simpa [Bindings.binds] using free
    rw [ih, stack_of_parent up, Reference.lookup?, Reference.lookup?, List.findSome?_cons,
      Bindings.lookup_toEnv, unbound]
  | case3 scope free up =>
    have unbound : (forest.bindingsOf scope).get? name = none := by
      simpa [Bindings.binds] using free
    rw [stack_of_no_parent up, Reference.lookup?, List.findSome?_cons,
      Bindings.lookup_toEnv, unbound]
    rfl

/-- A name is assigned where it is assigned on the stack, if anywhere. -/
theorem stack_assign (forest : Forest) (scope : Nat) (name : Name) (value : Value) :
    (forest.owner? scope name).map (fun owner => (forest.define owner name value).stack scope) =
      Reference.assign? name value (forest.stack scope) := by
  fun_induction owner? forest scope name with
  | case1 scope binds =>
    -- The scope itself is the owner, so only the innermost place of the stack changes.
    have own : forest.owner? scope name = some scope := by rw [owner?, if_pos binds]
    have inside := owner?_lt_size own
    rw [stack, Reference.assign?, if_pos ((Bindings.mem_toEnv ..).mpr binds), Option.map_some,
      stack_define_self inside, stack, List.tail_cons]
  | case2 scope free outer older up ih =>
    have unbound : name ∉ (forest.bindingsOf scope).toEnv := by
      simpa [Bindings.mem_toEnv] using free
    rw [stack_of_parent up, Reference.assign?, if_neg unbound, ← ih]
    -- The owner is further out, so this scope itself stays as it is.
    cases found : forest.owner? outer name with
    | none => rfl
    | some owner =>
      have further := (owner?_spec found).1
      have still : (forest.define owner name value).parentOf? scope = some ⟨outer, older⟩ := by
        rw [parentOf?_define, up]
      simp only [Option.map_some]
      rw [stack_of_parent still, bindingsOf_define, if_neg (by omega)]
  | case3 scope free up =>
    have unbound : name ∉ (forest.bindingsOf scope).toEnv := by
      simpa [Bindings.mem_toEnv] using free
    rw [stack_of_no_parent up, Reference.assign?, if_neg unbound]
    rfl

end Forest

end LoxLang
