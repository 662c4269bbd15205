import LoxLang.Family.Module
import LoxLang.Proofs.Family.Reading
import LoxLang.Proofs.Family.Writing

/-!
Descriptions are recognised by their grammar whatever their spacing is, and each node
type has one normal form.
-/

namespace LoxLang.Family

/-- Whether a line describes a node type by the grammar, white space around it and
between its parts aside. -/
def Describes (line : String) (spec : NodeSpec) : Prop :=
  ∃ parts, Spaced parts (Blank.strip line.toList) ∧ IsDescription parts spec

/-- Whether the types of all fields nest within the limit. -/
def NodeSpec.Shallow [Host] (spec : NodeSpec) : Prop :=
  ∀ field ∈ spec.fields, field.type.depth < nestingLimit

section

variable {line : String} {spec : NodeSpec}

/-- A node type is found exactly if the line describes it. -/
theorem describe?_eq_some_iff : describe? line = some spec ↔ Describes line spec := by
  simp [describe?, Describes, Option.bind_eq_some_iff, lexemes?_eq_some_iff, specOf?_eq_some_iff]

/-- A line describes one node type at most. -/
theorem Describes.unique {other : NodeSpec} (first : Describes line spec)
    (second : Describes line other) : spec = other := by
  rw [← describe?_eq_some_iff] at first second
  simpa [first] using second

/-- A line that describes a node type is answered with it, if it nests within the limit. -/
theorem Describes.describe_eq_ok [Host] (described : Describes line spec) (shallow : spec.Shallow) :
    describe line = .ok spec := by
  rw [describe, describe?_eq_some_iff.mpr described]
  exact if_pos (by simpa [NodeSpec.Shallow] using shallow)

/-- A line that describes a node type beyond the limit is answered with a complaint about that. -/
theorem Describes.describe_eq_error [Host] (described : Describes line spec)
    (deep : ¬spec.Shallow) :
    describe line = .error .nestedTooDeeply := by
  rw [describe, describe?_eq_some_iff.mpr described]
  exact if_neg (by simpa [NodeSpec.Shallow] using deep)

/-- The answer to any other line is a complaint about the line. -/
theorem describe_of_undescribed [Host] (none_ : ∀ spec, ¬Describes line spec) :
    describe line = .error (.invalid line) := by
  have missing : describe? line = none := by
    rw [Option.eq_none_iff_forall_ne_some]
    exact fun spec found => none_ spec (describe?_eq_some_iff.mp found)
  rw [describe, missing]

/-- These are all answers: there is one for each of the three cases. -/
theorem describe_cases [Host] (line : String) :
    (∃ spec, Describes line spec ∧ spec.Shallow ∧ describe line = .ok spec) ∨
      (∃ spec, Describes line spec ∧ ¬spec.Shallow ∧ describe line = .error .nestedTooDeeply) ∨
      ((∀ spec, ¬Describes line spec) ∧ describe line = .error (.invalid line)) := by
  by_cases described : ∃ spec, Describes line spec
  · obtain ⟨spec, is⟩ := described
    by_cases shallow : spec.Shallow
    · exact .inl ⟨spec, is, shallow, is.describe_eq_ok shallow⟩
    · exact .inr (.inl ⟨spec, is, shallow, is.describe_eq_error shallow⟩)
  · have none_ : ∀ spec, ¬Describes line spec := not_exists.mp described
    exact .inr (.inr ⟨none_, describe_of_undescribed none_⟩)

/-- A line is answered with a node type exactly if it describes it, and the node
type nests within the limit. -/
theorem describe_eq_ok_iff [Host] :
    describe line = .ok spec ↔ Describes line spec ∧ spec.Shallow := by
  refine ⟨fun answer => ?_, fun ⟨described, shallow⟩ => described.describe_eq_ok shallow⟩
  rcases describe_cases line with ⟨other, described, shallow, same⟩ | ⟨_, _, _, same⟩ | ⟨_, same⟩
  · rw [answer] at same
    cases same
    exact ⟨described, shallow⟩
  · rw [answer] at same
    cases same
  · rw [answer] at same
    cases same

end

/-- The text of a node type describes it, if there is a field and all its parts can be written. -/
theorem NodeSpec.describes_text {spec : NodeSpec} (filled : spec.fields ≠ [])
    (proper : ∀ part ∈ spec.lexemes, part.Proper) : Describes spec.text spec := by
  refine ⟨spec.lexemes, ?_, isDescription_iff.mpr ⟨filled, rfl⟩⟩
  rw [strip_text filled proper]
  exact spaced_text filled proper

/-- The text of a node type that is described describes it as well. -/
theorem Describes.text {line : String} {spec : NodeSpec} (described : Describes line spec) :
    Describes spec.text spec := by
  obtain ⟨parts, spaced, is⟩ := described
  obtain ⟨filled, rfl⟩ := isDescription_iff.mp is
  exact NodeSpec.describes_text filled spaced.proper

/--
Descriptions are recognised by their grammar.

A line is answered with a node type exactly if it is made of parts that the node type is derived
from, with any spacing between them, and the types of its fields nest within the limit. Beyond
the limit there is a complaint about that, and a line that describes nothing is complained
about. Types are written as their parts in a row, with a blank behind each comma. The answer
does not depend on the spacing, and the node type written as a text is read as the same node
type.
-/
theorem describe_recognises_grammar [Host] (line : String) :
    (∀ spec, describe line = .ok spec ↔ Describes line spec ∧ spec.Shallow) ∧
    (describe line = .error (.invalid line) ↔ ∀ spec, ¬Describes line spec) ∧
    (describe line = .error .nestedTooDeeply ↔ ∃ spec, Describes line spec ∧ ¬spec.Shallow) ∧
    (∀ parts type, IsType parts type → type.text.toList = parts.flatMap Lexeme.normal) ∧
    (∀ other parts, Spaced parts (Blank.strip line.toList) →
      Spaced parts (Blank.strip other.toList) →
      ∀ spec, describe line = .ok spec ↔ describe other = .ok spec) ∧
    ∀ spec, describe line = .ok spec → describe spec.text = .ok spec := by
  refine ⟨fun spec => describe_eq_ok_iff, ⟨?_, describe_of_undescribed⟩, ⟨?_, ?_⟩, ?_, ?_, ?_⟩
  · intro answer spec described
    by_cases shallow : spec.Shallow
    · simp [described.describe_eq_ok shallow] at answer
    · simp [described.describe_eq_error shallow] at answer
  · intro answer
    rcases describe_cases line with ⟨_, _, _, same⟩ | ⟨spec, described, deep, _⟩ | ⟨_, same⟩
    · simp [answer] at same
    · exact ⟨spec, described, deep⟩
    · simp [answer] at same
  · exact fun ⟨spec, described, deep⟩ => described.describe_eq_error deep
  · intro parts type is
    rw [isType_iff.mp is]
    exact type.toList_text
  · intro other parts spaced respaced spec
    -- The parts are all that reading has to go by.
    have same : describe? line = describe? other := by
      rw [describe?, describe?, spaced.lexemes?_eq, respaced.lexemes?_eq]
    rw [describe_eq_ok_iff, describe_eq_ok_iff, ← describe?_eq_some_iff,
      ← describe?_eq_some_iff, same]
  · intro spec answer
    obtain ⟨described, shallow⟩ := describe_eq_ok_iff.mp answer
    exact described.text.describe_eq_ok shallow

/-- A type with one argument inside the other, so many times. -/
def nestedType : Nat → FieldType
  | 0 => .named "X" []
  | n + 1 => .named "X" [nestedType n]

/-- It nests as deep as it says. -/
theorem depth_nestedType (n : Nat) : (nestedType n).depth = n := by
  induction n with
  | zero => rfl
  | succ n ih => simp [nestedType, FieldType.depth, FieldType.depthOfAll, ih]

/-- All its parts can be written. -/
theorem proper_nestedType (n : Nat) : ∀ part ∈ (nestedType n).lexemes, part.Proper := by
  have named : IsName "X" := ⟨'X', [], rfl, by decide, by simp⟩
  induction n with
  | zero => simpa [nestedType, FieldType.lexemes, Lexeme.Proper] using named
  | succ n ih =>
    rw [nestedType, FieldType.lexemes_named _ (by simp), List.map_singleton, joined_singleton]
    simpa [or_imp, forall_and, Lexeme.Proper, named] using ih

/-- A node type with one field, whose type nests beyond the limit. -/
def deepSpec : NodeSpec :=
  { name := "A", fields := [{ type := nestedType 4000, name := "z" }] }

/-- A line can describe a node type by the grammar and not be answered with one, as
its type nests too deeply. -/
theorem deep_description_has_no_answer :
    (∃ spec, Describes deepSpec.text spec) ∧ (¬∃ spec, describe deepSpec.text = .ok spec) ∧
      describe deepSpec.text = .error .nestedTooDeeply := by
  -- The grammar sets no bound to brackets, the reading does.
  have described : Describes deepSpec.text deepSpec := by
    refine NodeSpec.describes_text (by simp [deepSpec]) ?_
    have first : IsName "A" := ⟨'A', [], rfl, by decide, by simp⟩
    have last : IsName "z" := ⟨'z', [], rfl, by decide, by simp⟩
    have inner := proper_nestedType 4000
    rw [NodeSpec.lexemes, deepSpec, List.map_singleton, joined_singleton, Field.lexemes]
    simpa [or_imp, forall_and, Lexeme.Proper, first, last] using inner
  have deep : ¬deepSpec.Shallow := by
    intro shallow
    have bound := shallow _ (List.mem_singleton.mpr rfl)
    rw [depth_nestedType] at bound
    exact absurd bound (by decide)
  have answer := described.describe_eq_error deep
  refine ⟨⟨deepSpec, described⟩, ?_, answer⟩
  rintro ⟨spec, other⟩
  rw [answer] at other
  cases other

end LoxLang.Family
