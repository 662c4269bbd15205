import LoxLang.Name
import Mathlib.Data.Finmap

/-!
Scopes as finite maps, and a stack of them: what names are bound to in the innermost
scope that binds them.
-/

namespace LoxLang.Reference

/-- A scope: which names are bound, and to what. -/
abbrev Env (α : Type) := Finmap fun _ : Name => α

variable {α : Type}

/-- What a name is bound to in the innermost scope that binds it. -/
def lookup? (scopes : List (Env α)) (name : Name) : Option α :=
  scopes.findSome? (·.lookup name)

/-- The innermost scope comes first. -/
theorem lookup?_cons (inner : Env α) (outer : List (Env α)) (name : Name) :
    lookup? (inner :: outer) name = (inner.lookup name).or (lookup? outer name) := by
  rw [lookup?, List.findSome?_cons]
  cases inner.lookup name <;> rfl

/-- The scopes with a name bound anew in the innermost scope that binds it. -/
def assign? (name : Name) (value : α) : List (Env α) → Option (List (Env α))
  | [] => none
  | inner :: outer =>
    if name ∈ inner then some (inner.insert name value :: outer)
    else (assign? name value outer).map (inner :: ·)

/-- A name can be assigned if it can be looked up. -/
theorem isSome_assign? (name : Name) (value : α) (scopes : List (Env α)) :
    (assign? name value scopes).isSome = (lookup? scopes name).isSome := by
  induction scopes with
  | nil => rfl
  | cons inner outer ih =>
    -- The innermost scope decides if it binds the name, and is passed by otherwise.
    rw [assign?, lookup?_cons, Option.isSome_or, ← ih]
    by_cases bound : name ∈ inner
    · rw [if_pos bound, Finmap.lookup_isSome.mpr bound]
      rfl
    · rw [if_neg bound, Finmap.lookup_eq_none.mpr bound, Option.isSome_map]
      rfl

variable {β : Type} {related : α → β → Prop}

/-- What is related is there on both sides or on neither. -/
theorem isSome_eq_of_rel {found : Option α} {other : Option β}
    (both : Option.Rel related found other) :
    found.isSome = other.isSome := by
  cases both <;> rfl

/-- Whether two scopes bind the same names, to what stands in a relation. -/
def Env.Matches (related : α → β → Prop) (env : Env α) (other : Env β) : Prop :=
  ∀ name, Option.Rel related (env.lookup name) (other.lookup name)

namespace Env.Matches

variable {env : Env α} {other : Env β}

/-- Scopes that bind nothing match. -/
theorem empty : Matches related ∅ ∅ := by
  intro name
  rw [Finmap.lookup_empty, Finmap.lookup_empty]
  exact .none

/-- Scopes that match bind the same names. -/
theorem mem_iff (matched : Matches related env other) (name : Name) :
    name ∈ env ↔ name ∈ other := by
  rw [← Finmap.lookup_isSome, ← Finmap.lookup_isSome, isSome_eq_of_rel (matched name)]

/-- Scopes that match still do when a name is bound in both of them. -/
theorem insert (matched : Matches related env other) {a : α} {b : β} (same : related a b)
    (name : Name) : Matches related (env.insert name a) (other.insert name b) := by
  intro sought
  by_cases isName : sought = name
  · rw [isName, Finmap.lookup_insert, Finmap.lookup_insert]
    exact .some same
  · rw [Finmap.lookup_insert_of_ne _ isName, Finmap.lookup_insert_of_ne _ isName]
    exact matched sought

end Env.Matches

/-- Scopes match up to identity only if they are one. -/
theorem Env.matches_eq_iff (env other : Env α) : Matches (· = ·) env other ↔ env = other := by
  constructor
  · have one {found sought : Option α} (both : Option.Rel (· = ·) found sought) : found =
        sought := by
      cases both with
      | none => rfl
      | some same => rw [same]
    -- Scopes are given by what is found under each name.
    exact fun matched => Finmap.ext_lookup fun name => one (matched name)
  · rintro rfl name
    cases env.lookup name with
    | none => exact .none
    | some => exact .some rfl

/-- Whether scopes match one by one. -/
abbrev Match (related : α → β → Prop) : List (Env α) → List (Env β) → Prop :=
  List.Forall₂ (Env.Matches related)

/-- Scopes match up to identity only if they are the same ones. -/
theorem match_eq : Match (· = · : α → α → Prop) = (· = ·) := by
  have one : Env.Matches (· = · : α → α → Prop) = (· = ·) := by
    funext env other
    exact propext (Env.matches_eq_iff env other)
  rw [Match, one, List.forall₂_eq_eq_eq]

/-- What is looked up in scopes that match is related. -/
theorem Match.lookup? {scopes : List (Env α)} {others : List (Env β)}
    (matched : Match related scopes others) (name : Name) :
    Option.Rel related (lookup? scopes name) (lookup? others name) := by
  induction matched with
  | nil => exact .none
  | cons inner _ ih =>
    -- The innermost scopes bind the name both, or neither does.
    have both := inner name
    rw [lookup?_cons, lookup?_cons]
    generalize Finmap.lookup name _ = found at both ⊢
    generalize Finmap.lookup name _ = other at both ⊢
    cases both with
    | some same => exact .some same
    | none => exact ih

/-- Scopes that match still do when a name is assigned in both of them. -/
theorem Match.assign? {scopes : List (Env α)} {others : List (Env β)}
    (matched : Match related scopes others) {a : α} {b : β} (same : related a b) (name : Name) :
    Option.Rel (Match related) (assign? name a scopes) (assign? name b others) := by
  induction matched with
  | nil => exact .none
  | @cons own _ _ _ inner outer ih =>
    rw [Reference.assign?, Reference.assign?]
    -- The innermost scopes bind the same names, so the same scope is changed in both.
    by_cases bound : name ∈ own
    · rw [if_pos bound, if_pos ((inner.mem_iff name).mp bound)]
      exact .some (.cons (inner.insert same name) outer)
    · rw [if_neg bound, if_neg fun other => bound ((inner.mem_iff name).mpr other)]
      generalize Reference.assign? name a _ = changed at ih ⊢
      generalize Reference.assign? name b _ = other at ih ⊢
      cases ih with
      | none => exact .none
      | some both => exact .some (.cons inner both)

end LoxLang.Reference
