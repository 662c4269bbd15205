import LoxLang.Proofs.Execution.Laws
import LoxLang.Proofs.Scope.Forest

/-!
Which scopes see a write: names resolve along the chain of scopes, and every write lands
in one of them.
-/

namespace LoxLang.Forest

/-- A change that is asked of a forest. -/
inductive Request where
  | create (parent : Option Nat)
  | define (scope : Nat) (name : Name) (value : Value)
  | assign (scope : Nat) (mark : Mark) (value : Value)

/-- Whether the scopes that a request is about are there. -/
def Request.Fits (forest : Forest) : Request → Prop
  | create parent => ∀ outer ∈ parent, outer < forest.size
  | define scope _ _ | assign scope _ _ => scope < forest.size

instance (forest : Forest) : (request : Request) → Decidable (request.Fits forest)
  | .create parent => inferInstanceAs (Decidable (∀ outer ∈ parent, outer < forest.size))
  | .define scope _ _ | .assign scope _ _ => inferInstanceAs (Decidable (scope < forest.size))

/-- How a request ends, and the forest afterwards. -/
def serve (forest : Forest) : Request → Except Halt Unit × Forest
  | .create parent => (.ok (), forest.create parent)
  | .define scope name value => (.ok (), forest.define scope name value)
  | .assign scope mark value =>
    match forest.write scope mark value with
    | .ok changed => (.ok (), changed)
    | .error halt => (.error halt, forest)

/-- Whether a forest came of requests, one after another, each about scopes that were there. -/
inductive Built : Forest → Prop where
  | empty : Built {}
  | served {forest : Forest} {request : Request} :
    Built forest → request.Fits forest → Built (forest.serve request).2

/-- The scope that a scope was created in. -/
def enclosing? (forest : Forest) (scope : Nat) : Option Nat :=
  forest.scopes[scope]?.bind (·.parent)

/-- The scopes on the way from one scope outwards, itself the first and an outermost
one the last. -/
inductive Chain (forest : Forest) : Nat → List Nat → Prop where
  | outermost {scope : Nat} :
    scope < forest.size → forest.enclosing? scope = none → Chain forest scope [scope]
  | inside {scope outer : Nat} {further : List Nat} :
    forest.enclosing? scope = some outer → Chain forest outer further →
      Chain forest scope (scope :: further)

/-- Whether a scope is on the chain of another, and none that is nearer on it binds a name. -/
def Reveals (forest : Forest) (scope : Nat) (name : Name) (target : Nat) : Prop :=
  ∃ near far, forest.Chain scope (near ++ target :: far) ∧ ∀ passed ∈ near,
    ¬(forest.bindingsOf passed).binds name

/-- Whether a scope is the nearest on the chain of another that binds a name. -/
def Owns (forest : Forest) (scope : Nat) (name : Name) (owner : Nat) : Prop :=
  forest.Reveals scope name owner ∧ (forest.bindingsOf owner).binds name

section

variable {forest : Forest}

/-- Binding a name moves no scope. -/
@[simp] theorem enclosing?_define (forest : Forest) (scope other : Nat) (name : Name)
    (value : Value) :
    (forest.define scope name value).enclosing? other = forest.enclosing? other := by
  unfold enclosing? define
  rw [Array.getElem?_modify]
  -- Only the bindings of the scope change, and not where it stands.
  by_cases same : scope = other
  · subst same
    rw [if_pos rfl]
    cases forest.scopes[scope]? <;> rfl
  · rw [if_neg same]

/-- A new scope stands where it was created, and the others stay where they are. -/
theorem enclosing?_create (forest : Forest) (parent : Option Nat) (scope : Nat) :
    (forest.create parent).enclosing? scope =
      if scope = forest.size then parent else forest.enclosing? scope := by
  unfold enclosing? create size
  rw [Array.getElem?_push]
  by_cases new : scope = forest.scopes.size
  · simp [new]
  · simp [new]

/-- Whether every scope is younger than the one it stands in. -/
def Ordered (forest : Forest) : Prop :=
  ∀ scope outer, forest.enclosing? scope = some outer → outer < scope

/-- A request about scopes that are there keeps every scope younger than the one it stands in. -/
theorem Ordered.serve (ordered : forest.Ordered) {request : Request} (fits : request.Fits forest) :
    (forest.serve request).2.Ordered := by
  intro scope outer up
  cases request with
  | create parent =>
    rw [Forest.serve, enclosing?_create] at up
    -- The scope that is new gets a number above all others.
    split at up
    · next new =>
      rw [new]
      exact fits outer up
    · exact ordered scope outer up
  | define =>
    rw [Forest.serve, enclosing?_define] at up
    exact ordered scope outer up
  | assign target mark value =>
    rw [Forest.serve] at up
    cases written : forest.write target mark value with
    | error halt =>
      rw [written] at up
      exact ordered scope outer up
    | ok changed =>
      -- What was written is one binding of one scope.
      obtain ⟨name, owner, _, rfl⟩ := exists_owner_of_write written
      rw [written, enclosing?_define] at up
      exact ordered scope outer up

/-- However a forest came about, every scope is younger than the one it stands in. -/
theorem Built.ordered (built : forest.Built) : forest.Ordered := by
  induction built with
  | empty =>
    intro scope outer up
    simp [enclosing?] at up
  | served _ fits ih => exact ih.serve fits

/-- A scope that stands in another is there. -/
theorem lt_size_of_enclosing? {scope outer : Nat} (up : forest.enclosing? scope = some outer) :
    scope < forest.size := by
  -- Where no scope is, nothing tells what it would stand in.
  apply Nat.lt_of_not_le
  intro outside
  rw [enclosing?, Array.getElem?_eq_none outside] at up
  cases up

/-- The search for a name ends in a scope that stands in no other. -/
theorem parentOf?_eq_none {scope : Nat} (top : forest.enclosing? scope = none) :
    forest.parentOf? scope = none := by
  unfold parentOf?
  cases there : forest.scopes[scope]? with
  | none => rfl
  | some found =>
    rcases found with ⟨parent, bindings⟩
    have parentless : parent = none := by simpa [enclosing?, there] using top
    rw [parentless]

namespace Chain

variable {scope : Nat} {way : List Nat}

/-- Every scope on a chain is there. -/
theorem lt_size (chain : forest.Chain scope way) : ∀ passed ∈ way, passed < forest.size := by
  induction chain with
  | outermost inside _ => simpa using inside
  | inside up _ ih =>
    intro passed member
    rcases List.mem_cons.mp member with rfl | member
    · exact lt_size_of_enclosing? up
    · exact ih passed member

/-- There is one way outwards only. -/
theorem unique (chain : forest.Chain scope way) {other : List Nat}
    (another : forest.Chain scope other) :
    way = other := by
  induction chain generalizing other with
  | outermost _ none =>
    cases another with
    | outermost => rfl
    | inside up _ => simp [none] at up
  | inside up _ ih =>
    cases another with
    | outermost _ none => simp [none] at up
    | inside alsoUp further =>
      -- Both ways lead on from the same scope.
      rw [up, Option.some.injEq] at alsoUp
      subst alsoUp
      rw [ih further]

/-- Binding a name leaves the way outwards as it is. -/
theorem define (chain : forest.Chain scope way) (target : Nat) (name : Name) (value : Value) :
    (forest.define target name value).Chain scope way := by
  induction chain with
  | outermost inside none => exact .outermost (by simpa using inside) (by simpa using none)
  | inside up _ ih => exact .inside (by simpa using up) ih

end Chain

namespace Ordered

variable (ordered : forest.Ordered)

include ordered

/-- From every scope that is there, a way leads outwards. -/
theorem exists_chain {scope : Nat} (inside : scope < forest.size) :
    ∃ way, forest.Chain scope way := by
  -- Each scope on the way is older than the one before it, so the way ends.
  induction scope using Nat.strongRecOn with
  | ind scope ih =>
    cases up : forest.enclosing? scope with
    | none => exact ⟨[scope], .outermost inside up⟩
    | some outer =>
      have older := ordered scope outer up
      obtain ⟨further, chain⟩ := ih outer older (by omega)
      exact ⟨scope :: further, .inside up chain⟩

/-- The search for a name goes from a scope to the one that it was created in. -/
theorem parentOf?_eq {scope outer : Nat} (up : forest.enclosing? scope = some outer) :
    forest.parentOf? scope = some ⟨outer, ordered scope outer up⟩ := by
  have older := ordered scope outer up
  unfold enclosing? at up
  unfold parentOf?
  obtain ⟨found, there, parent⟩ := Option.bind_eq_some_iff.mp up
  rcases found with ⟨around, bindings⟩
  simp only at parent
  subst parent
  simp [there, older]

/-- A name is looked for along the chain, and the first scope that binds it is taken. -/
theorem owner?_eq {scope : Nat} {way : List Nat} (chain : forest.Chain scope way) (name : Name) :
    forest.owner? scope name = way.find? fun passed => (forest.bindingsOf passed).binds name := by
  induction chain with
  | @outermost scope _ top =>
    rw [owner?, parentOf?_eq_none top, List.find?_singleton]
  | @inside scope outer further up _ ih =>
    rw [owner?, ordered.parentOf?_eq up, List.find?_cons]
    -- The scope itself is looked at first, and then the ones behind it.
    cases (forest.bindingsOf scope).binds name with
    | true => rfl
    | false => exact ih

/-- The nearest scope that binds a name is the one that the search finds. -/
theorem owner?_eq_some_iff {scope : Nat} (inside : scope < forest.size) (name : Name)
    (owner : Nat) :
    forest.owner? scope name = some owner ↔ forest.Owns scope name owner := by
  obtain ⟨way, chain⟩ := ordered.exists_chain inside
  rw [ordered.owner?_eq chain, List.find?_eq_some_iff_append]
  -- There is one chain only, so what the search passes by is what lies nearer in any.
  constructor
  · rintro ⟨binds, near, far, rfl, unbound⟩
    exact ⟨⟨near, far, chain, by simpa using unbound⟩, binds⟩
  · rintro ⟨⟨near, far, alsoChain, unbound⟩, binds⟩
    exact ⟨binds, near, far, chain.unique alsoChain, by simpa using unbound⟩

/-- A name has the value that the first scope on the chain with a binding of it gives it. -/
theorem get?_eq {scope : Nat} {way : List Nat} (chain : forest.Chain scope way) (name : Name) :
    forest.get? scope name = way.findSome? fun passed => (forest.bindingsOf passed).get? name := by
  rw [get?, ordered.owner?_eq chain]
  clear chain
  show ((way.find? fun passed => ((forest.bindingsOf passed).get? name).isSome).bind
    fun owner => (forest.bindingsOf owner).get? name) = _
  -- The scopes that are passed give nothing, so looking for a binding is looking for a value.
  induction way with
  | nil => rfl
  | cons passed further ih =>
    rw [List.find?_cons, List.findSome?_cons]
    cases bound : (forest.bindingsOf passed).get? name with
    | none => exact ih
    | some value => exact bound

end Ordered

/-- Binding a name leaves all other bindings as they are, in its scope and elsewhere. -/
theorem get?_bindingsOf_define {target scope : Nat} {name known : Name}
    (apart : ¬(known = name ∧ scope = target)) (value : Value) :
    ((forest.define target name value).bindingsOf scope).get? known =
      (forest.bindingsOf scope).get? known := by
  rw [bindingsOf_define]
  split
  · next here =>
    -- In the scope itself, the name is another one.
    rw [Bindings.get?_set, if_neg fun same => apart ⟨same, here.1⟩, here.1]
  · rfl

/-- A binding that is made in a scope is found along every chain on which no nearer
scope binds the name. -/
theorem findSome?_define {target : Nat} {name : Name} (inside : target < forest.size)
    (value : Value) {near : List Nat} (far : List Nat)
    (unbound : ∀ passed ∈ near, ¬(forest.bindingsOf passed).binds name) :
    ((near ++ target :: far).findSome? fun passed =>
      ((forest.define target name value).bindingsOf passed).get? name) = some value := by
  have bound : ((forest.define target name value).bindingsOf target).get? name = some value := by
    rw [bindingsOf_define, if_pos ⟨rfl, inside⟩, Bindings.get?_set, if_pos rfl]
  induction near with
  | nil => rw [List.nil_append, List.findSome?_cons, bound]
  | cons passed near ih =>
    rw [List.cons_append, List.findSome?_cons]
    by_cases same : passed = target
    · rw [same, bound]
    · -- A scope that is passed binds nothing new, so the search goes on behind it.
      have free : ((forest.define target name value).bindingsOf passed).get? name = none := by
        rw [get?_bindingsOf_define (by simp [same])]
        simpa [Bindings.binds] using unbound passed (by simp)
      rw [free]
      exact ih fun other member => unbound other (by simp [member])

/-- A binding that is made in a scope does not show where a nearer scope binds the
name, or under another name. -/
theorem findSome?_define_of_hidden {target : Nat} {name known : Name} (value : Value)
    {way : List Nat}
    (hidden : known = name → ∀ near far, way = near ++ target :: far →
      ∃ passed ∈ near, (forest.bindingsOf passed).binds name) :
    (way.findSome? fun passed => ((forest.define target name value).bindingsOf passed).get? known) =
      way.findSome? fun passed => (forest.bindingsOf passed).get? known := by
  induction way with
  | nil => rfl
  | cons passed further ih =>
    rw [List.findSome?_cons, List.findSome?_cons]
    by_cases same : known = name ∧ passed = target
    · -- A scope that stands first is hidden by none.
      obtain ⟨_, member, _⟩ := hidden same.1 [] further (by rw [same.2]; rfl)
      cases member
    · rw [get?_bindingsOf_define same]
      cases free : (forest.bindingsOf passed).get? known with
      | some held => rfl
      | none =>
        -- What hides the scope stands behind the one that was passed.
        apply ih
        intro named near far split
        obtain ⟨nearer, member, binds⟩ := hidden named (passed :: near) far (by rw [split]; rfl)
        rcases List.mem_cons.mp member with rfl | member
        · rw [Bindings.binds, ← named, free] at binds
          cases binds
        · exact ⟨nearer, member, binds⟩

namespace Ordered

variable (ordered : forest.Ordered)

include ordered

/-- Binding a name moves no scope, so the order stays. -/
theorem define (scope : Nat) (name : Name) (value : Value) :
    (forest.define scope name value).Ordered := by
  intro other outer up
  rw [enclosing?_define] at up
  exact ordered other outer up

section

variable {other target : Nat} {name : Name}

/-- A binding is seen from every scope to which it is revealed. -/
theorem get?_define_of_reveals (reveals : forest.Reveals other name target) (value : Value) :
    (forest.define target name value).get? other name = some value := by
  obtain ⟨near, far, chain, unbound⟩ := reveals
  have inside := chain.lt_size target (by simp)
  rw [(ordered.define target name value).get?_eq (chain.define ..)]
  exact findSome?_define inside value far unbound

/-- From every other scope, and under every other name, all is seen as before. -/
theorem get?_define_of_not_reveals (inside : other < forest.size) {known : Name}
    (hidden : ¬(known = name ∧ forest.Reveals other name target)) (value : Value) :
    (forest.define target name value).get? other known = forest.get? other known := by
  obtain ⟨way, chain⟩ := ordered.exists_chain inside
  rw [(ordered.define target name value).get?_eq (chain.define ..), ordered.get?_eq chain]
  apply findSome?_define_of_hidden
  intro named near far split
  -- If no nearer scope bound the name, the binding would be revealed.
  apply Classical.byContradiction
  intro unbound
  refine hidden ⟨named, near, far, split ▸ chain, fun passed member binds => ?_⟩
  exact unbound ⟨passed, member, binds⟩

end

end Ordered

/-- Giving a bound name another value neither adds nor takes a name anywhere. -/
theorem binds_define_of_binds {owner : Nat} {name : Name}
    (bound : (forest.bindingsOf owner).binds name) (value : Value) (other : Nat) (known : Name) :
    ((forest.define owner name value).bindingsOf other).binds known =
      (forest.bindingsOf other).binds known := by
  rw [bindingsOf_define]
  split
  · next here =>
    rw [here.1, Bindings.binds, Bindings.get?_set]
    -- The one name whose value changes is bound before and after.
    split
    · next same =>
      rw [same, bound]
      rfl
    · rfl
  · rfl

end

/--
Every operation acts on exactly one scope of a forest, whatever made the forest and
however its scopes are shared.

A name has the value that the nearest scope on the chain with a binding of it gives it, or
reading it fails. An assignment changes that value for every scope whose chain leads to the same
owner, and nothing else. It adds and takes no name; without an owner it fails, and the forest
stays as it is. A definition is seen from the scopes that have its scope on their chain and no
nearer binding, and changes nothing else.
-/
theorem operations_act_on_one_scope {forest : Forest} (built : forest.Built) {scope : Nat}
    (inside : scope < forest.size) {mark : Mark} {name : Name} (named : mark.name = .ok name)
    (value : Value) :
    (∀ owner, forest.Owns scope name owner →
      ∃ held, (forest.bindingsOf owner).get? name = some held ∧ forest.read scope mark = .ok held) ∧
    ((∀ owner, ¬forest.Owns scope name owner) →
      forest.read scope mark = .error (mark.blame (.undefinedVariable mark.text))) ∧
    (∀ owner, forest.Owns scope name owner →
      ∃ changed, forest.serve (.assign scope mark value) = (.ok (), changed) ∧
        changed.size = forest.size ∧
        (∀ other known, (changed.bindingsOf other).binds known =
          (forest.bindingsOf other).binds known) ∧
        ∀ other, other < forest.size → ∀ (seen : Mark) (known : Name), seen.name = .ok known →
          ((known = name ∧ forest.Owns other name owner → changed.read other seen = .ok value) ∧
            (¬(known = name ∧ forest.Owns other name owner) →
              changed.read other seen = forest.read other seen))) ∧
    ((∀ owner, ¬forest.Owns scope name owner) →
      forest.serve (.assign scope mark value) =
        (.error (mark.blame (.undefinedVariable mark.text)), forest)) ∧
    ∀ other, other < forest.size → ∀ (seen : Mark) (known : Name), seen.name = .ok known →
      (known = name ∧ forest.Reveals other name scope →
        (forest.serve (.define scope name value)).2.read other seen = .ok value) ∧
      (¬(known = name ∧ forest.Reveals other name scope) →
        (forest.serve (.define scope name value)).2.read other seen = forest.read other seen) := by
  have ordered := built.ordered
  have owner_iff := ordered.owner?_eq_some_iff inside name
  have unowned (none : ∀ owner, ¬forest.Owns scope name owner) : forest.owner? scope name =
      Option.none :=
    Option.eq_none_iff_forall_ne_some.mpr fun owner found => none owner ((owner_iff owner).mp found)
  -- Reading with and without an owner, assigning with and without one, and defining.
  refine ⟨?_, ?_, ?_, ?_, ?_⟩
  · intro owner owns
    obtain ⟨held, bound⟩ := Option.isSome_iff_exists.mp owns.2
    have found : forest.get? scope name = some held := by
      rw [get?, (owner_iff owner).mpr owns]
      exact bound
    exact ⟨held, bound, by rw [read_of_name named, found]⟩
  · intro none
    have missing : forest.get? scope name = Option.none := by
      rw [get?, unowned none]
      rfl
    rw [read_of_name named, missing]
  · intro owner owns
    refine ⟨forest.define owner name value, ?_, size_define .., fun other known => ?_, ?_⟩
    · rw [serve, write_of_name named, (owner_iff owner).mpr owns]
    · exact binds_define_of_binds owns.2 value other known
    · intro other there seen known seenNamed
      rw [read_of_name seenNamed, read_of_name seenNamed]
      constructor
      · rintro ⟨rfl, alsoOwns⟩
        rw [ordered.get?_define_of_reveals alsoOwns.1]
      · intro apart
        -- The owner binds the name, so to see the write is to resolve to the same owner.
        have hidden : ¬(known = name ∧ forest.Reveals other name owner) := fun ⟨same, reveals⟩ =>
          apart ⟨same, reveals, owns.2⟩
        rw [ordered.get?_define_of_not_reveals there hidden]
  · intro none
    rw [serve, write_of_name named, unowned none]
  · intro other there seen known seenNamed
    rw [serve, read_of_name seenNamed, read_of_name seenNamed]
    constructor
    · rintro ⟨rfl, reveals⟩
      rw [ordered.get?_define_of_reveals reveals]
    · intro hidden
      rw [ordered.get?_define_of_not_reveals there hidden]

/-- An outermost scope with a variable, two scopes in it of which the second hides the
variable, and one in the first. -/
def shared : Forest :=
  { scopes := #[{ bindings := [(.word "x", .nil)] }, { parent := some 0 },
      { parent := some 0, bindings := [(.word "x", .string "own")] }, { parent := some 1 }] }

/-- What is assigned two scopes further in is seen in between and outside, but not
where the variable is hidden. -/
theorem operations_act_on_one_scope_shared :
    let x : Mark := .token { kind := .identifier, lexeme := "x" }
    shared.Built ∧ shared.read 3 x = .ok .nil ∧
      ∃ changed, shared.serve (.assign 3 x (.string "new")) = (.ok (), changed) ∧
        changed.read 1 x = .ok (.string "new") ∧ changed.read 2 x = shared.read 2 x := by
  intro x
  -- A variable in the outermost scope, two scopes in it, and one more in the first of these.
  have built : shared.Built := by
    have outermost : Built _ := @Built.served _ (.create none) .empty (by decide)
    have variable_ : Built _ := @Built.served _ (.define 0 (.word "x") .nil) outermost (by decide)
    have first : Built _ := @Built.served _ (.create (some 0)) variable_ (by decide)
    have second : Built _ := @Built.served _ (.create (some 0)) first (by decide)
    have hidden : Built _ :=
      @Built.served _ (.define 2 (.word "x") (.string "own")) second (by decide)
    exact @Built.served _ (.create (some 1)) hidden (by decide)
  have outermost : shared.Chain 0 [0] := .outermost (by decide) rfl
  have first : shared.Chain 1 [1, 0] := .inside rfl outermost
  have owns : shared.Owns 3 (.word "x") 0 := ⟨⟨[3, 1], [], .inside rfl first, by decide⟩, by decide⟩
  -- The second scope in the outermost one has a variable of its own, which stands in the way.
  have apart : ¬shared.Owns 2 (.word "x") 0 := by
    rintro ⟨⟨near, far, chain, unbound⟩, _⟩
    have same := chain.unique (.inside rfl outermost)
    cases near with
    | nil => cases same
    | cons passed near =>
      cases (List.cons.inj same).1
      exact absurd rfl (unbound 2 (by simp))
  -- The first scope sees the owner, the second does not.
  obtain ⟨reads, _, assigns, _⟩ := operations_act_on_one_scope built (by decide : 3 < shared.size)
    (rfl : x.name = .ok (.word "x")) (.string "new")
  obtain ⟨held, bound, read⟩ := reads 0 owns
  obtain ⟨changed, served, _, _, seen⟩ := assigns 0 owns
  cases bound
  refine ⟨built, read, changed, served, ?_, ?_⟩
  · exact (seen 1 (by decide) x _ rfl).1 ⟨rfl, ⟨[1], [], first, by decide⟩, by decide⟩
  · exact (seen 2 (by decide) x _ rfl).2 fun ⟨_, owned⟩ => apart owned

end LoxLang.Forest
