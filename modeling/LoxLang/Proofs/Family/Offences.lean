import Mathlib.Data.List.Forall2
import LoxLang.Proofs.Family.Recognition

/-!
A module is refused for the first of its lines that cannot stand where it does, and for
no other reason.
-/

namespace LoxLang.Family

/-- Whether a name is taken: it is a base, or the name of a node type that an
earlier line describes. -/
def Taken (bases before : List String) (name : String) : Prop :=
  name ∈ bases ∨ ∃ line ∈ before, ∃ spec, Describes line spec ∧ spec.name = name

variable [Host]

/-- Why a line cannot stand behind the lines before it, among families with the given bases. -/
inductive Offends (bases before : List String) (line : String) : DefinitionError → Prop where
  | invalid : (∀ spec, ¬Describes line spec) → Offends bases before line (.invalid line)
  | deep {spec : NodeSpec} : Describes line spec → ¬spec.Shallow →
    Offends bases before line .nestedTooDeeply
  | taken {spec : NodeSpec} :
    Describes line spec → spec.Shallow → Taken bases before spec.name →
      Offends bases before line (.duplicate spec.name)

/-- Whether no line offends. -/
def Blameless (bases lines : List String) : Prop :=
  ∀ before line after, lines = before ++ line :: after → ∀ error, ¬Offends bases before line error

/-- Whether the first line that offends does so for the given reason. -/
def FirstOffence (bases lines : List String) (error : DefinitionError) : Prop :=
  ∃ before line after, lines = before ++ line :: after ∧ Offends bases before line error ∧
    Blameless bases before

section

variable {bases before : List String} {line : String}

/-- A line offends for one reason only. -/
theorem Offends.unique {error other : DefinitionError} (first : Offends bases before line error)
    (second : Offends bases before line other) : error = other := by
  -- It describes one node type at most, and that one nests within the limit or not.
  cases first with
  | invalid none_ =>
    cases second with
    | invalid => rfl
    | deep described | taken described => exact absurd described (none_ _)
  | deep described deep =>
    cases second with
    | invalid none_ => exact absurd described (none_ _)
    | deep => rfl
    | taken otherDescribed shallow => exact absurd (described.unique otherDescribed ▸ shallow) deep
  | taken described shallow =>
    cases second with
    | invalid none_ => exact absurd described (none_ _)
    | deep otherDescribed deep => exact absurd (described.unique otherDescribed ▸ shallow) deep
    | taken otherDescribed => rw [described.unique otherDescribed]

/-- A line that is answered with a node type of a new name does not offend. -/
theorem not_offends {spec : NodeSpec} (answer : describe line = .ok spec)
    (new : ¬Taken bases before spec.name) (error : DefinitionError) :
    ¬Offends bases before line error := by
  obtain ⟨described, shallow⟩ := describe_eq_ok_iff.mp answer
  rintro (none_ | ⟨other, deep⟩ | ⟨other, _, taken⟩)
  · exact none_ spec described
  · exact deep (described.unique other ▸ shallow)
  · exact new (described.unique other ▸ taken)

/-- Behind blameless lines, another one that does not offend is blameless too. -/
theorem Blameless.concat (blameless : Blameless bases before)
    (next : ∀ error, ¬Offends bases before line error) :
    Blameless bases (before ++ [line]) := by
  intro front other behind same
  -- The line asked for is the last one, or one of those before.
  rcases List.eq_nil_or_concat behind with rfl | ⟨inner, last, rfl⟩
  · obtain ⟨rfl, last⟩ := List.append_inj' same rfl
    obtain rfl := List.singleton_inj.mp last
    exact next
  · rw [List.concat_eq_append, ← List.cons_append, ← List.append_assoc] at same
    obtain ⟨same, _⟩ := List.append_inj' same rfl
    exact blameless front other inner same

omit [Host] in
/-- Behind a line that describes a node type, the name of the node type is taken as well. -/
theorem taken_concat {spec : NodeSpec} (described : Describes line spec) (name : String) :
    Taken bases (before ++ [line]) name ↔ name = spec.name ∨ Taken bases before name := by
  constructor
  · rintro (base | ⟨earlier, listed, other, otherDescribed, rfl⟩)
    · exact .inr (.inl base)
    · rcases List.mem_append.mp listed with front | last
      · exact .inr (.inr ⟨earlier, front, other, otherDescribed, rfl⟩)
      · obtain rfl := List.mem_singleton.mp last
        exact .inl (by rw [described.unique otherDescribed])
  · rintro (rfl | base | ⟨earlier, listed, other, otherDescribed, rfl⟩)
    · exact .inr ⟨line, by simp, spec, described, rfl⟩
    · exact .inl base
    · exact .inr ⟨earlier, by simp [listed], other, otherDescribed, rfl⟩

end

section

variable {bases lines : List String} {error : DefinitionError}

/-- Where a line offends, not all lines are blameless. -/
theorem FirstOffence.not_blameless (offence : FirstOffence bases lines error) :
    ¬Blameless bases lines := by
  obtain ⟨before, line, after, rfl, offends, _⟩ := offence
  exact fun blameless => blameless before line after rfl error offends

/-- There is one first offence at most. -/
theorem FirstOffence.unique {other : DefinitionError} (first : FirstOffence bases lines error)
    (second : FirstOffence bases lines other) : error = other := by
  obtain ⟨before, line, after, rfl, offends, blameless⟩ := first
  obtain ⟨otherBefore, otherLine, otherAfter, same, otherOffends, otherBlameless⟩ := second
  -- If one of them were further on, the lines before it would not be blameless.
  rcases List.append_eq_append_iff.mp same with ⟨between, rfl, rest⟩ | ⟨between, rfl, rest⟩
  · cases between with
    | nil =>
      obtain ⟨rfl, _⟩ := List.cons.inj rest
      rw [List.append_nil] at otherOffends
      exact offends.unique otherOffends
    | cons next between =>
      obtain ⟨rfl, _⟩ := List.cons.inj rest
      exact absurd offends (otherBlameless before line between rfl error)
  · cases between with
    | nil =>
      obtain ⟨rfl, _⟩ := List.cons.inj rest
      rw [List.append_nil] at offends
      exact offends.unique otherOffends
    | cons next between =>
      obtain ⟨rfl, _⟩ := List.cons.inj rest
      exact absurd otherOffends (blameless otherBefore otherLine between rfl other)

end

/--
Lines are checked up to the first that offends.

Behind lines that are blameless, with the names that are taken by then, the others pass or
the first offence is told.
-/
theorem checkLines_cases {bases before taken : List String}
    (known : ∀ name, name ∈ taken ↔ Taken bases before name) (blameless : Blameless bases before)
    (rest : List String) :
    (checkLines taken rest = .ok () ∧ Blameless bases (before ++ rest)) ∨
      ∃ error, checkLines taken rest = .error error ∧
        FirstOffence bases (before ++ rest) error := by
  induction rest generalizing before taken with
  | nil => exact .inl ⟨rfl, by rwa [List.append_nil]⟩
  | cons line rest ih =>
    have refused {error : DefinitionError} (offends : Offends bases before line error) :
        FirstOffence bases (before ++ line :: rest) error :=
          ⟨before, line, rest, rfl, offends, blameless⟩
    rcases describe_cases line with ⟨spec, described, shallow, answer⟩ |
      ⟨spec, described, deep, answer⟩ | ⟨none_, answer⟩
    · by_cases listed : spec.name ∈ taken
      · -- The name is there already.
        refine .inr ⟨.duplicate spec.name, ?_,
          refused (.taken described shallow ((known _).mp listed))⟩
        simp [checkLines, answer, listed, Bind.bind, Except.bind]
      · -- The line passes, and its name is taken for those behind it.
        have step : checkLines taken (line :: rest) = checkLines (spec.name :: taken) rest := by
          simp [checkLines, answer, listed, Bind.bind, Except.bind]
        have passes := blameless.concat (not_offends answer fun is => listed ((known _).mpr is))
        have knows : ∀ name, name ∈ spec.name :: taken ↔ Taken bases (before ++ [line]) name := by
          intro name
          rw [List.mem_cons, known, taken_concat described]
        rw [step]
        simpa using ih knows passes
    · refine .inr ⟨.nestedTooDeeply, ?_, refused (.deep described deep)⟩
      simp [checkLines, answer, Bind.bind, Except.bind]
    · refine .inr ⟨.invalid line, ?_, refused (.invalid none_)⟩
      simp [checkLines, answer, Bind.bind, Except.bind]

section

variable {bases lines : List String}

/-- From the start, only the bases are taken, and there is nothing to blame. -/
theorem checkLines_bases (bases lines : List String) :
    (checkLines bases lines = .ok () ∧ Blameless bases lines) ∨
      ∃ error, checkLines bases lines = .error error ∧ FirstOffence bases lines error := by
  have known : ∀ name, name ∈ bases ↔ Taken bases [] name := by simp [Taken]
  have blameless : Blameless bases [] := by
    intro before line after same
    simp at same
  simpa using checkLines_cases known blameless lines

/-- Lines pass exactly if they are blameless. -/
theorem checkLines_eq_ok_iff : checkLines bases lines = .ok () ↔ Blameless bases lines := by
  rcases checkLines_bases bases lines with ⟨passed, blameless⟩ | ⟨error, refused, offence⟩
  · exact ⟨fun _ => blameless, fun _ => passed⟩
  · rw [refused]
    constructor
    · rintro ⟨⟩
    · exact fun blameless => absurd blameless offence.not_blameless

/-- Lines that are not blameless have a first offence. -/
theorem exists_firstOffence (blamed : ¬Blameless bases lines) :
    ∃ error, FirstOffence bases lines error := by
  rcases checkLines_bases bases lines with ⟨_, blameless⟩ | ⟨error, _, offence⟩
  · exact absurd blameless blamed
  · exact ⟨error, offence⟩

/-- Each of blameless lines is answered with a node type. -/
theorem Blameless.describe_eq_ok (blameless : Blameless bases lines) {line : String}
    (listed : line ∈ lines) :
    ∃ spec, describe line = .ok spec := by
  obtain ⟨before, after, rfl⟩ := List.append_of_mem listed
  have innocent := blameless before line after rfl
  rcases describe_cases line with ⟨spec, _, _, answer⟩ | ⟨spec, described, deep, _⟩ | ⟨none_, _⟩
  · exact ⟨spec, answer⟩
  · exact absurd (.deep described deep) (innocent _)
  · exact absurd (.invalid none_) (innocent _)

end

omit [Host] in
/-- Going through a list gives results exactly if each item gives its own. -/
theorem mapM_eq_ok_iff {ε α β : Type} {f : α → Except ε β} {items : List α} {results : List β} :
    items.mapM f = .ok results ↔
      List.Forall₂ (fun item result => f item = .ok result) items results := by
  induction items generalizing results with
  | nil => cases results <;> simp [Pure.pure, Except.pure]
  | cons item items ih =>
    rw [List.mapM_cons]
    -- The first failure decides; without one, the results are put together in order.
    cases first : f item with
    | error => cases results <;> simp [first, Bind.bind, Except.bind]
    | ok result =>
      cases later : items.mapM f with
      | error => cases results <;> simp [first, later, ← ih, Bind.bind, Except.bind]
      | ok others =>
        cases results <;> simp [first, later, ← ih, Bind.bind, Except.bind, Pure.pure, Except.pure]

omit [Host] in
/-- If each item has a counterpart, all of them have, in order. -/
theorem exists_forall₂ {α β : Type} {related : α → β → Prop} {items : List α}
    (each : ∀ item ∈ items, ∃ other, related item other) :
    ∃ others, List.Forall₂ related items others := by
  induction items with
  | nil => exact ⟨[], .nil⟩
  | cons item items ih =>
    obtain ⟨other, first⟩ := each item (by simp)
    obtain ⟨others, later⟩ := ih fun item member => each item (by simp [member])
    exact ⟨other :: others, .cons first later⟩

/-- Node types by the bases of their families, in order. -/
abbrev Described := List (String × List NodeSpec)

/-- Whether families have the given bases, in order, and their lines describe the
given node types. -/
def Families.Describe (families : Families) (described : Described) : Prop :=
  List.Forall₂ (fun family given => family.1 = given.1 ∧ List.Forall₂ Describes family.2 given.2)
    families described

/-- The text of a module with the given node types. -/
def moduleText (described : Described) : String :=
  moduleHeader ++ String.join (described.map fun (base, specs) => renderFamily base specs)

/-- If each line is answered with a node type, the families describe some, and their texts
are those of the node types. -/
theorem mapM_defineFamily {families : Families}
    (answered : ∀ line ∈ families.lines, ∃ spec, describe line = .ok spec) :
    ∃ described, families.Describe described ∧
      (families.mapM fun (base, lines) => defineFamily base lines) =
        .ok (described.map fun (base, specs) => renderFamily base specs) := by
  -- Line by line, and then family by family, the answers are collected.
  have each : ∀ family ∈ families, ∃ given : String × List NodeSpec,
      family.1 = given.1 ∧
        List.Forall₂ (fun line spec => describe line = .ok spec) family.2 given.2 := by
    intro family member
    obtain ⟨specs, answers⟩ := exists_forall₂ fun line listed =>
      answered line (List.mem_flatMap.mpr ⟨family, member, listed⟩)
    exact ⟨(family.1, specs), rfl, answers⟩
  obtain ⟨described, all⟩ := exists_forall₂ each
  refine ⟨described, ?_, ?_⟩
  -- What is collected is what the families describe, and it is what is rendered.
  · refine all.imp ?_
    rintro family given ⟨base, answers⟩
    exact ⟨base, answers.imp fun line spec answer => (describe_eq_ok_iff.mp answer).1⟩
  · rw [mapM_eq_ok_iff, List.forall₂_map_right_iff]
    refine all.imp ?_
    rintro ⟨base, lines⟩ ⟨_, specs⟩ ⟨rfl, answers⟩
    change defineFamily base lines = .ok (renderFamily base specs)
    rw [defineFamily, mapM_eq_ok_iff.mpr answers]
    rfl

/-- The bases of families, in order. -/
def Families.bases (families : Families) : List String :=
  families.map (·.1)

/-- Blameless families are written out as the node types they describe, and all others are refused
for the first offence. -/
theorem defineModule_cases (families : Families) :
    (Blameless families.bases families.lines ∧
      ∃ described, families.Describe described ∧
        defineModule families = .ok (moduleText described)) ∨
    ∃ error, FirstOffence families.bases families.lines error ∧
      defineModule families = .error error := by
  rcases checkLines_bases families.bases families.lines with ⟨passed, blameless⟩ |
    ⟨error, refused, offence⟩
  · -- What has passed the check once is answered again.
    obtain ⟨described, describe, texts⟩ := mapM_defineFamily fun line listed =>
      blameless.describe_eq_ok listed
    refine .inl ⟨blameless, described, describe, ?_⟩
    rw [Families.bases] at passed
    simp only [defineModule, passed, texts, Bind.bind, Except.bind, Pure.pure, Except.pure,
      moduleText]
  · refine .inr ⟨error, offence, ?_⟩
    rw [Families.bases] at refused
    simp only [defineModule, refused, Bind.bind, Except.bind]

section

variable {families : Families}

/-- A module is refused for the first offence, and for nothing else. -/
theorem defineModule_eq_error_iff {error : DefinitionError} :
    defineModule families = .error error ↔ FirstOffence families.bases families.lines error := by
  rcases defineModule_cases families with ⟨blameless, _, _, answer⟩ | ⟨other, offence, answer⟩
  · rw [answer]
    constructor
    · rintro ⟨⟩
    · exact fun offence => absurd blameless offence.not_blameless
  · rw [answer, Except.error.injEq]
    exact ⟨fun same => same ▸ offence, offence.unique⟩

/-- A module that is written out is blameless, and its text is that of the node types described. -/
theorem described_of_defineModule {text : String} (answer : defineModule families = .ok text) :
    Blameless families.bases families.lines ∧ ∃ described, families.Describe described ∧
      text = moduleText described := by
  rcases defineModule_cases families with ⟨blameless, described, describe, same⟩ | ⟨error, _, same⟩
  · rw [answer, Except.ok.injEq] at same
    exact ⟨blameless, described, describe, same⟩
  · rw [answer] at same
    cases same

end

end LoxLang.Family
