import LoxLang.Halt

/-! Scopes that know their enclosing scope, kept together in a forest that only grows. -/

namespace LoxLang

/-- The names bound in one scope, in the order in which they were first bound. -/
abbrev Bindings := List (Name × Value)

namespace Bindings

/-- Binds a name, in its old place if it is bound already. -/
def set (name : Name) (value : Value) : Bindings → Bindings
  | [] => [(name, value)]
  | (other, old) :: rest =>
    if other = name then (name, value) :: rest else (other, old) :: set name value rest

/-- The value a name is bound to. -/
def get? (bindings : Bindings) (name : Name) : Option Value :=
  bindings.lookup name

/-- Whether a name is bound. -/
def binds (bindings : Bindings) (name : Name) : Bool :=
  (bindings.get? name).isSome

/-- The bindings ordered by the texts of their names. -/
def sorted (bindings : Bindings) : Bindings :=
  bindings.mergeSort fun a b => decide (a.1.text ≤ b.1.text)

/-- Binding a name changes what that name is bound to, and nothing else. -/
theorem get?_set (bindings : Bindings) (name other : Name) (value : Value) :
    (set name value bindings).get? other =
      if other = name then some value else bindings.get? other := by
  -- The comparison of names decides, at every pair, which of the two lookups goes on.
  induction bindings with
  | nil => grind [set, get?]
  | cons first rest ih => grind [set, get?]

end Bindings

/-- A scope: its own bindings and the number of the scope around it. -/
structure Scope where
  parent : Option Nat := none
  bindings : Bindings := []
deriving Inhabited

/-- Scopes numbered in the order of their creation; the scope around another is older than it. -/
structure Forest where
  scopes : Array Scope := #[]
deriving Inhabited

namespace Forest

/-- A forest with one scope that binds the given names. -/
def root (bindings : Bindings) : Forest :=
  { scopes := #[{ bindings }] }

/-- The number that the next scope gets. -/
def size (forest : Forest) : Nat :=
  forest.scopes.size

/-- A forest with one more scope. -/
def create (forest : Forest) (parent : Option Nat) : Forest :=
  { scopes := forest.scopes.push { parent } }

/-- The bindings of one scope. -/
def bindingsOf (forest : Forest) (scope : Nat) : Bindings :=
  match forest.scopes[scope]? with
  | some found => found.bindings
  | none => []

/-- The scope around another, which must be an older one. -/
def parentOf? (forest : Forest) (scope : Nat) : Option { outer : Nat // outer < scope } :=
  match forest.scopes[scope]? with
  | some { parent := some outer, .. } => if older : outer < scope then some ⟨outer, older⟩ else none
  | _ => none

/-- The nearest scope, from the given one outwards, that binds a name. -/
def owner? (forest : Forest) (scope : Nat) (name : Name) : Option Nat :=
  if (forest.bindingsOf scope).binds name then some scope
  else
    match forest.parentOf? scope with
    | some ⟨outer, _⟩ => forest.owner? outer name
    | none => none
termination_by scope

/-- How many scopes stand around one. -/
def depth (forest : Forest) (scope : Nat) : Nat :=
  match forest.parentOf? scope with
  | some ⟨outer, _⟩ => forest.depth outer + 1
  | none => 0
termination_by scope

/-- Binds a name in one scope, whatever the scopes around it bind. -/
def define (forest : Forest) (scope : Nat) (name : Name) (value : Value) : Forest :=
  { scopes := forest.scopes.modify scope fun found =>
    { found with bindings := found.bindings.set name value } }

/-- The value of a name as seen from a scope. -/
def get? (forest : Forest) (scope : Nat) (name : Name) : Option Value := do
  let owner ← forest.owner? scope name
  (forest.bindingsOf owner).get? name

/-- Gives a new value to a name in the scope that binds it, if there is one. -/
def assign? (forest : Forest) (scope : Nat) (name : Name) (value : Value) : Option Forest := do
  let owner ← forest.owner? scope name
  return forest.define owner name value

/-- The value of the name that a mark stands for; the mark is blamed if the name is not bound. -/
def read (forest : Forest) (scope : Nat) (mark : Mark) : Except Halt Value := do
  match forest.get? scope (← mark.name) with
  | some value => return value
  | none => .error (mark.blame (.undefinedVariable mark.text))

/-- Gives a new value to the name that a mark stands for; the mark is blamed if the
name is not bound. -/
def write (forest : Forest) (scope : Nat) (mark : Mark) (value : Value) : Except Halt Forest := do
  match forest.assign? scope (← mark.name) value with
  | some changed => return changed
  | none => .error (mark.blame (.undefinedVariable mark.text))

end Forest

end LoxLang
