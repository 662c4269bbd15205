import LoxLang.Scope

/-! How creating a scope and binding a name change a forest, and what they leave as it is. -/

namespace LoxLang

namespace Bindings

/-- Binding a name adds one pair at most. -/
theorem mem_set {bindings : Bindings} {name : Name} {value : Value} {pair : Name × Value}
    (member : pair ∈ set name value bindings) : pair = (name, value) ∨ pair ∈ bindings := by
  induction bindings with
  | nil => exact .inl (List.mem_singleton.mp member)
  | cons first rest ih => grind [set]

/-- What a name is bound to stands among the bindings. -/
theorem mem_of_get? {bindings : Bindings} {name : Name} {value : Value}
    (found : bindings.get? name = some value) :
    (name, value) ∈ bindings := by
  induction bindings with
  | nil => simp [get?] at found
  | cons first rest ih => grind [get?]

/-- Binding a name unbinds no other. -/
theorem binds_set {bindings : Bindings} {name other : Name} {value : Value}
    (bound : bindings.binds other) :
    (set name value bindings).binds other := by
  -- The name itself is bound anew, and every other one is looked up as before.
  rw [binds, get?_set]
  split
  · rfl
  · exact bound

end Bindings

namespace Forest

/-- The first forest has one scope. -/
@[simp] theorem size_root (bindings : Bindings) : (root bindings).size = 1 :=
  rfl

/-- The first scope binds what it is given. -/
@[simp] theorem bindingsOf_root (bindings : Bindings) : (root bindings).bindingsOf 0 = bindings :=
  rfl

/-- A new scope is one more. -/
@[simp] theorem size_create (forest : Forest) (parent : Option Nat) :
    (forest.create parent).size = forest.size + 1 := by
  simp [create, size]

/-- Binding a name makes no scope. -/
@[simp] theorem size_define (forest : Forest) (scope : Nat) (name : Name) (value : Value) :
    (forest.define scope name value).size = forest.size := by
  simp [define, size]

/-- A scope that is not there binds nothing. -/
theorem bindingsOf_of_size_le {forest : Forest} {scope : Nat} (outside : forest.size ≤ scope) :
    forest.bindingsOf scope = [] := by
  rw [bindingsOf, Array.getElem?_eq_none outside]

/-- A new scope binds nothing, so no scope binds more or less than before. -/
@[simp] theorem bindingsOf_create (forest : Forest) (parent : Option Nat) (scope : Nat) :
    (forest.create parent).bindingsOf scope = forest.bindingsOf scope := by
  -- A scope that is not there is taken to bind nothing, which is what the new one does.
  unfold bindingsOf create
  rw [Array.getElem?_push]
  by_cases new : scope = forest.scopes.size
  · simp [new]
  · simp [new]

/-- Binding a name changes the bindings of one scope. -/
theorem bindingsOf_define (forest : Forest) (scope other : Nat) (name : Name) (value : Value) :
    (forest.define scope name value).bindingsOf other =
      if other = scope ∧ scope < forest.size then (forest.bindingsOf scope).set name value
      else forest.bindingsOf other := by
  -- Where there is no such scope, there is nothing to change.
  unfold bindingsOf define size
  rw [Array.getElem?_modify]
  by_cases same : scope = other
  · subst same
    by_cases inside : scope < forest.scopes.size
    · simp [inside]
    · simp [inside]
  · simp [same, Ne.symm same]

/-- Binding a name unbinds nothing in any scope. -/
theorem binds_define {forest : Forest} {other : Nat} {known : Name} (scope : Nat) (name : Name)
    (value : Value) (bound : (forest.bindingsOf other).binds known) :
    ((forest.define scope name value).bindingsOf other).binds known := by
  rw [bindingsOf_define]
  split
  case isTrue same =>
    -- Only the scope that changes has to be looked at.
    rw [same.1] at bound
    exact Bindings.binds_set bound
  case isFalse => exact bound

/-- Binding a name leaves every scope where it is. -/
@[simp] theorem parentOf?_define (forest : Forest) (scope other : Nat) (name : Name)
    (value : Value) :
    (forest.define scope name value).parentOf? other = forest.parentOf? other := by
  unfold parentOf? define
  rw [Array.getElem?_modify]
  by_cases same : scope = other
  · subst same
    rw [if_pos rfl]
    rcases forest.scopes[scope]? with _ | ⟨_ | outer, bindings⟩ <;> rfl
  · simp [same]

/-- A new scope leaves the others where they are. -/
theorem parentOf?_create_of_lt {forest : Forest} {scope : Nat} (parent : Option Nat)
    (inside : scope < forest.size) :
    (forest.create parent).parentOf? scope = forest.parentOf? scope := by
  have old : scope ≠ forest.scopes.size := Nat.ne_of_lt inside
  unfold parentOf? create
  rw [Array.getElem?_push, if_neg old]

/-- A new scope stands inside the one it was created for. -/
theorem parentOf?_create_size {forest : Forest} {outer : Nat} (older : outer < forest.size) :
    (forest.create (some outer)).parentOf? forest.size = some ⟨outer, older⟩ := by
  unfold parentOf? create size at *
  simp [older]

/-- The scope that a name is resolved to is not younger than the one it is looked up
from, and binds it. -/
theorem owner?_spec {forest : Forest} {scope owner : Nat} {name : Name}
    (found : forest.owner? scope name = some owner) :
    owner ≤ scope ∧ (forest.bindingsOf owner).binds name := by
  -- The search goes outwards, from each scope to an older one.
  fun_induction owner? forest scope name with
  | case1 scope binds =>
    cases found
    exact ⟨Nat.le_refl _, binds⟩
  | case2 scope _ outer older _ ih =>
    obtain ⟨le, binds⟩ := ih found
    exact ⟨by omega, binds⟩
  | case3 => cases found

/-- The scope that a name is resolved to is there. -/
theorem owner?_lt_size {forest : Forest} {scope owner : Nat} {name : Name}
    (found : forest.owner? scope name = some owner) : owner < forest.size := by
  -- A scope that is not there binds nothing, so it owns nothing.
  have binds := (owner?_spec found).2
  rcases Nat.lt_or_ge owner forest.size with inside | outside
  · exact inside
  · rw [bindingsOf_of_size_le outside] at binds
    simp [Bindings.binds, Bindings.get?] at binds

/-- Whether every value that is bound anywhere is among given ones. -/
def Holds (values : Value → Prop) (forest : Forest) : Prop :=
  ∀ scope, ∀ pair ∈ forest.bindingsOf scope, values pair.2

variable {values : Value → Prop} {forest : Forest}

/-- The first forest holds the values it is given. -/
theorem Holds.root {bindings : Bindings} (each : ∀ pair ∈ bindings, values pair.2) :
    (root bindings).Holds values := by
  intro scope pair member
  cases scope with
  | zero => exact each pair member
  | succ scope =>
    rw [bindingsOf_of_size_le (by simp)] at member
    simp at member

/-- A new scope adds no value. -/
theorem Holds.create (holds : forest.Holds values) (parent : Option Nat) :
    (forest.create parent).Holds values := by
  intro scope pair member
  rw [bindingsOf_create] at member
  exact holds scope pair member

/-- Binding a name adds one value at most. -/
theorem Holds.define (holds : forest.Holds values) (scope : Nat) (name : Name) {value : Value}
    (known : values value) :
    (forest.define scope name value).Holds values := by
  -- In the scope that changes, a binding is the new one or was there before.
  intro other pair member
  rw [bindingsOf_define] at member
  split at member
  · rcases Bindings.mem_set member with rfl | old
    · exact known
    · exact holds scope pair old
  · exact holds other pair member

/-- What a name is seen to be bound to is a value of the forest. -/
theorem Holds.get? (holds : forest.Holds values) {scope : Nat} {name : Name} {value : Value}
    (found : forest.get? scope name = some value) : values value := by
  obtain ⟨owner, _, bound⟩ := Option.bind_eq_some_iff.mp found
  exact holds owner _ (Bindings.mem_of_get? bound)

end Forest

end LoxLang
