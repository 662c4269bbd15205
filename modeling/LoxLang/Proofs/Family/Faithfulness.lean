import LoxLang.Proofs.Family.Generation

/-! Families are refused for the first line that offends, and otherwise written out faithfully. -/

namespace LoxLang.Family

/-- Of items that are related in order, each of the second list is related to one of the first. -/
theorem exists_of_mem_right {α β : Type} {related : α → β → Prop} {items : List α} {others : List β}
    (all : List.Forall₂ related items others) {other : β} (listed : other ∈ others) :
    ∃ item ∈ items, related item other := by
  induction all with
  | nil => cases listed
  | cons first _ ih =>
    rcases List.mem_cons.mp listed with rfl | later
    · exact ⟨_, List.mem_cons_self .., first⟩
    · obtain ⟨item, member, is⟩ := ih later
      exact ⟨item, List.mem_cons_of_mem _ member, is⟩

namespace Families.Describe

variable {families : Families} {described : Described} (all : families.Describe described)

include all

/-- Families have the bases of the node types they describe. -/
theorem bases : families.bases = described.map (·.1) := by
  induction all with
  | nil => rfl
  | cons family _ ih =>
    rw [Families.bases, List.map_cons, family.1, List.map_cons, ← ih, Families.bases]

/-- The lines of all families describe the node types of all families, in order. -/
theorem lines : List.Forall₂ Describes families.lines (described.flatMap (·.2)) := by
  induction all with
  | nil => exact .nil
  | cons family _ ih => exact List.rel_append family.2 ih

/-- What is described can be written, if the bases are bare. -/
theorem proper (bare : ∀ base ∈ families.bases, Bare base) : described.Proper := by
  have given := all.bases
  constructor
  · intro family member
    rw [given] at bare
    exact bare family.1 (List.mem_map_of_mem member)
  · intro family member spec listed part inside
    -- Only parts that can be written are found in a line.
    obtain ⟨line, _, parts, spaced, is⟩ : ∃ line ∈ families.lines, Describes line spec :=
      exists_of_mem_right all.lines (List.mem_flatMap.mpr ⟨family, member, listed⟩)
    obtain ⟨_, rfl⟩ := isDescription_iff.mp is
    exact spaced.proper part inside

/-- Families describe one list of node types only. -/
theorem unique {others : Described} (second : families.Describe others) : described = others := by
  have specs : Relator.RightUnique Describes := fun _ _ _ first second => first.unique second
  refine List.right_unique_forall₂' ?_ all second
  rintro family given other ⟨base, listed⟩ ⟨otherBase, otherListed⟩
  exact Prod.ext (base.symm.trans otherBase) (List.right_unique_forall₂' specs listed otherListed)

/-- If the bases differ from each other and no line is to blame, no two classes have
the same name. -/
theorem nodup_names [Host] (dict : families.bases.Nodup)
    (blameless : Blameless families.bases families.lines) :
    described.names.Nodup := by
  obtain ⟨free, distinct⟩ := @nodup_of_blameless _ families.bases [] _ _ all.lines blameless
  rw [described.names_perm.nodup_iff, List.nodup_append, ← all.bases]
  refine ⟨dict, distinct, ?_⟩
  rintro base listed name member rfl
  obtain ⟨spec, among, rfl⟩ := List.mem_map.mp member
  exact free spec among (.inl listed)

end Families.Describe

/-- Without types that nest too deeply, lines offend if one describes nothing or one
has a name that is taken. -/
theorem firstOffence_iff [Host] {bases lines : List String}
    (shallow : ∀ line ∈ lines, ∀ spec, Describes line spec → spec.Shallow) :
    (∃ error, error ≠ .nestedTooDeeply ∧ FirstOffence bases lines error) ↔
      (∃ line ∈ lines, ∀ spec, ¬Describes line spec) ∨
        ∃ before line after spec, lines = before ++ line :: after ∧ Describes line spec ∧
          Taken bases before spec.name := by
  -- Only three things offend, and too deep a nesting is ruled out.
  constructor
  · rintro ⟨error, _, before, line, after, rfl, offends, _⟩
    cases offends with
    | invalid none_ => exact .inl ⟨line, by simp, none_⟩
    | deep described deep => exact absurd (shallow line (by simp) _ described) deep
    | taken described _ taken => exact .inr ⟨before, line, after, _, rfl, described, taken⟩
  · intro some
    -- An offence of either kind may have others before it; the first of them counts.
    have blamed : ¬Blameless bases lines := by
      intro blameless
      rcases some with ⟨line, listed, none_⟩ | ⟨before, line, after, spec, rfl, described, taken⟩
      · obtain ⟨before, after, rfl⟩ := List.append_of_mem listed
        exact blameless before line after rfl _ (.invalid none_)
      · exact blameless before line after rfl _
          (.taken described (shallow line (by simp) spec described) taken)
    obtain ⟨error, offence⟩ := exists_firstOffence blamed
    refine ⟨error, ?_, offence⟩
    rintro rfl
    obtain ⟨before, line, after, rfl, offends, _⟩ := offence
    cases offends with
    | deep described deep => exact deep (shallow line (by simp) _ described)

/--
Modules are written out faithfully, and no two of their classes have the same name.

Families whose bases differ and are bare, as identifiers are, are refused for the first line
that offends, and for nothing else: a line that describes nothing, one whose node type has a
name that an earlier line or a base has taken, or one whose types nest too deeply. If no types
nest too deeply, there is a complaint about the grammar exactly if some line is of one of the
first two sorts. All others are written out. The classes that the text defines are the bases and
the node types described, in order, and have different names. Another module has the same text
exactly if it has the same bases, in order, each with the same node types.
-/
theorem defineModule_is_faithful [Host] (families : Families) (dict : families.bases.Nodup)
    (bare : ∀ base ∈ families.bases, Bare base) :
    (∀ error, defineModule families = .error error ↔
      FirstOffence families.bases families.lines error) ∧
    ((∀ line ∈ families.lines, ∀ spec, Describes line spec → spec.Shallow) →
      ((∃ error, error ≠ .nestedTooDeeply ∧ defineModule families = .error error) ↔
        (∃ line ∈ families.lines, ∀ spec, ¬Describes line spec) ∨
          ∃ before line after spec, families.lines = before ++ line :: after ∧ Describes line spec ∧
            Taken families.bases before spec.name)) ∧
    (Blameless families.bases families.lines → ∃ text, defineModule families = .ok text) ∧
    ∀ text, defineModule families = .ok text →
      (∃ described, families.Describe described ∧ classNames text = described.names ∧
        (classNames text).Nodup) ∧
      ∀ others otherText, (∀ base ∈ others.bases, Bare base) → defineModule others = .ok otherText →
        (text = otherText ↔ ∃ described, families.Describe described ∧
          others.Describe described) := by
  refine ⟨fun error => defineModule_eq_error_iff, fun shallow => ?_, ?_, ?_⟩
  · simp only [defineModule_eq_error_iff]
    exact firstOffence_iff shallow
  · intro blameless
    rcases defineModule_cases families with ⟨_, described, _, answer⟩ | ⟨_, offence, _⟩
    · exact ⟨_, answer⟩
    · exact absurd blameless offence.not_blameless
  · intro text answer
    obtain ⟨blameless, described, all, rfl⟩ := described_of_defineModule answer
    have proper := all.proper bare
    have names := classNames_moduleText proper
    refine ⟨⟨described, all, names, names ▸ all.nodup_names dict blameless⟩, ?_⟩
    intro others otherText otherBare otherAnswer
    obtain ⟨_, otherDescribed, otherAll, rfl⟩ := described_of_defineModule otherAnswer
    constructor
    · intro same
      obtain rfl := moduleText_injective proper (otherAll.proper otherBare) same
      exact ⟨described, all, otherAll⟩
    · rintro ⟨given, first, second⟩
      rw [all.unique first, otherAll.unique second]

/-- Two families and the same families with other blanks in their line. -/
def spacedFamilies (line : String) : Families :=
  [("B", [line]), ("C", [])]

/-- Families that differ in blanks only have the same text. -/
theorem defineModule_is_faithful_respaced :
    (spacedFamilies "A : X y").bases.Nodup ∧
      (∀ base ∈ (spacedFamilies "A : X y").bases, Bare base) ∧
      ∃ text, defineModule (spacedFamilies "A : X y") = .ok text ∧ (classNames text).Nodup ∧
        defineModule (spacedFamilies "\tA:X  y ") = .ok text := by
  have bare : ∀ name ∈ ["B", "C"], Bare name := by
    have first : IsName "B" := ⟨'B', [], rfl, by decide, by simp⟩
    have second : IsName "C" := ⟨'C', [], rfl, by decide, by simp⟩
    simp [first.bare, second.bare]
  -- Both lines have these parts, whatever blanks stand between them.
  have described : IsDescription [.name "A", .colon, .name "X", .name "y"]
      { name := "A", fields := [{ type := .named "X" [], name := "y" }] } :=
    .described "A" (.one (.typed "y" (.plain "X")))
  have describes {line : String}
      (read : lexemes? (Blank.strip line.toList) = some [.name "A", .colon, .name "X", .name "y"]) :
      (spacedFamilies line).Describe
        [("B", [{ name := "A", fields := [{ type := .named "X" [], name := "y" }] }]), ("C", [])] :=
    .cons ⟨rfl, .cons ⟨_, lexemes?_eq_some_iff.mp read, described⟩ .nil⟩ (.cons ⟨rfl, .nil⟩ .nil)
  have faithful (line : String) :=
    defineModule_is_faithful (spacedFamilies line) (show ["B", "C"].Nodup by decide) bare
  have passes {line : String} (passed : checkLines ["B", "C"] [line] = .ok ()) :
      ∃ text, defineModule (spacedFamilies line) = .ok text :=
        (faithful line).2.2.1 (checkLines_eq_ok_iff.mp passed)
  -- Each is answered with a text; as they describe the same, it is one text.
  obtain ⟨text, answer⟩ := @passes "A : X y" (by decide +kernel)
  obtain ⟨other, otherAnswer⟩ := @passes "\tA:X  y " (by decide +kernel)
  obtain ⟨⟨_, _, _, distinct⟩, unique⟩ := (faithful "A : X y").2.2.2 text answer
  obtain rfl :=
    (unique (spacedFamilies "\tA:X  y ") other bare otherAnswer).mpr
      ⟨_, describes (by decide +kernel), describes (by decide +kernel)⟩
  exact ⟨by decide, bare, text, answer, distinct, otherAnswer⟩

/-- Families with a line that nests too deeply in front of one that describes nothing. -/
def deepFamilies : Families :=
  [("B", [(singleSpec (nestedType 4000)).text, ""])]

/-- A line that nests too deeply keeps the complaint about a later line from being made. -/
theorem deep_line_hides_later_offence :
    deepFamilies.bases.Nodup ∧ (∀ base ∈ deepFamilies.bases, Bare base) ∧
      (∃ line ∈ deepFamilies.lines, ∀ spec, ¬Describes line spec) ∧
      (¬∃ error, error ≠ .nestedTooDeeply ∧ defineModule deepFamilies = .error error) ∧
      defineModule deepFamilies = .error .nestedTooDeeply := by
  have named : IsName "B" := ⟨'B', [], rfl, by decide, by simp⟩
  have deep : ¬(singleSpec (nestedType 4000)).Shallow := by
    intro shallow
    have bound := shallow _ (List.mem_singleton.mpr rfl)
    rw [depth_nestedType] at bound
    exact absurd bound (by decide)
  -- The first line is derived but too deep, which is the first offence.
  have first : FirstOffence deepFamilies.bases deepFamilies.lines .nestedTooDeeply :=
    ⟨[], _, [""], rfl, .deep (describes_singleSpec (proper_nestedType 4000))
      deep, by simp [Blameless]⟩
  -- The second line describes nothing and would be an offence of its own.
  have empty : ∀ spec, ¬Describes "" spec := by
    intro spec described
    have found := describe?_eq_some_iff.mpr described
    simp [describe?, Blank.strip, lexemes?, specOf?] at found
  refine ⟨by decide, by simpa [deepFamilies, Families.bases] using named.bare,
    ⟨"", by simp [deepFamilies, Families.lines], empty⟩, ?_, defineModule_eq_error_iff.mpr first⟩
  rintro ⟨error, other, refused⟩
  exact other ((defineModule_eq_error_iff.mp refused).unique first)

end LoxLang.Family
