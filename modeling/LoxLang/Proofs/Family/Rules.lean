import LoxLang.Family.Description

/-!
The grammar of descriptions as rules of derivation, and the parts that each node type is
derived from.
-/

namespace LoxLang.Family

/-- The parts of one item or more, with a comma between two, given what the parts of
one item are. -/
inductive Separated {α : Type} (is : List Lexeme → α → Prop) : List Lexeme → List α → Prop where
  | one {parts : List Lexeme} {item : α} : is parts item → Separated is parts [item]
  | more {parts others : List Lexeme} {item : α} {items : List α} :
    is parts item → Separated is others items →
      Separated is (parts ++ .comma :: others) (item :: items)

/-- The parts that are one type, and the type. -/
inductive IsType : List Lexeme → FieldType → Prop where
  | plain (name : String) : IsType [.name name] (.named name [])
  | generic (outer : String) {parts : List Lexeme} {types : List FieldType} :
    Separated IsType parts types →
      IsType (.name outer :: .opening :: parts ++ [.closing]) (.named outer types)
  | ellipsis : IsType [.ellipsis] .ellipsis

/-- The parts that are one field, and the field. -/
inductive IsField : List Lexeme → Field → Prop where
  | typed {parts : List Lexeme} {type : FieldType} (name : String) :
    IsType parts type → IsField (parts ++ [.name name]) { type, name }

/-- The parts that are a whole description, and the node type described. -/
inductive IsDescription : List Lexeme → NodeSpec → Prop where
  | described (name : String) {parts : List Lexeme} {fields : List Field} :
    Separated IsField parts fields → IsDescription (.name name :: .colon :: parts) { name, fields }

/-- Lists of parts as one list, with a comma between two. -/
def joined (items : List (List Lexeme)) : List Lexeme :=
  [Lexeme.comma].intercalate items

/-- A single list of parts stays as it is. -/
theorem joined_singleton (item : List Lexeme) : joined [item] = item := by
  simp [joined]

/-- A list of parts in front of others is followed by a comma. -/
theorem joined_cons (item : List Lexeme) {items : List (List Lexeme)} (filled : items ≠ []) :
    joined (item :: items) = item ++ .comma :: joined items := by
  rw [joined, List.intercalate_cons_of_ne_nil filled, joined]
  simp

/-- Of lists that are joined, each but the last one is followed by the separator. -/
theorem intercalate_concat {α : Type} (separator : List α) (items : List (List α)) (last : List α) :
    separator.intercalate (items ++ [last]) = items.flatMap (· ++ separator) ++ last := by
  induction items with
  | nil => simp
  | cons item items ih =>
    rw [List.cons_append, List.intercalate_cons_of_ne_nil (by simp), ih]
    simp

/-- Each list of parts but the last one is followed by a comma. -/
theorem joined_concat (items : List (List Lexeme)) (last : List Lexeme) :
    joined (items ++ [last]) = items.flatMap (· ++ [.comma]) ++ last :=
  intercalate_concat [Lexeme.comma] items last

/-- Whatever stands in one of the lists stands in all of them together. -/
theorem mem_joined {items : List (List Lexeme)} {item : List Lexeme} {part : Lexeme}
    (listed : item ∈ items) (member : part ∈ item) : part ∈ joined items := by
  induction items with
  | nil => simp at listed
  | cons first items ih =>
    rcases List.mem_cons.mp listed with rfl | later
    · cases items with
      | nil => simpa [joined_singleton] using member
      | cons next items => simp [joined_cons item (List.cons_ne_nil next items), member]
    · rw [joined_cons first (List.ne_nil_of_mem later)]
      simp [ih later]

namespace FieldType

/-- What holds for a type if it holds for its arguments holds for every type. -/
@[elab_as_elim, induction_eliminator]
theorem induction {motive : FieldType → Prop} (ellipsis : motive ellipsis)
    (named : ∀ name arguments, (∀ argument ∈ arguments, motive argument) →
      motive (named name arguments))
    (type : FieldType) : motive type := by
  refine @FieldType.rec motive (fun arguments => ∀ argument ∈ arguments, motive argument) ellipsis
    named ?_ ?_ type
  · simp
  · intro first rest holds later
    simpa using ⟨holds, later⟩

mutual

/-- The parts of a type. -/
def lexemes : FieldType → List Lexeme
  | ellipsis => [.ellipsis]
  | named name [] => [.name name]
  | named name (first :: rest) =>
    .name name :: .opening :: joined (lexemes first :: lexemesOfAll rest) ++ [.closing]

/-- The parts of several types. -/
def lexemesOfAll : List FieldType → List (List Lexeme)
  | [] => []
  | first :: rest => lexemes first :: lexemesOfAll rest

end

/-- The parts of several types are those of each in turn. -/
theorem lexemesOfAll_eq_map (types : List FieldType) : lexemesOfAll types = types.map lexemes := by
  induction types with
  | nil => rfl
  | cons first rest ih => rw [lexemesOfAll, ih, List.map_cons]

/-- The arguments of a type stand in brackets, with a comma between two. -/
theorem lexemes_named (name : String) {arguments : List FieldType} (filled : arguments ≠ []) :
    (named name arguments).lexemes =
      .name name :: .opening :: joined (arguments.map lexemes) ++ [.closing] := by
  obtain ⟨first, rest, rfl⟩ := List.exists_cons_of_ne_nil filled
  rw [lexemes, lexemesOfAll_eq_map, List.map_cons]

end FieldType

/-- The parts of a field. -/
def Field.lexemes (field : Field) : List Lexeme :=
  field.type.lexemes ++ [.name field.name]

/-- The parts of a description of a node type. -/
def NodeSpec.lexemes (spec : NodeSpec) : List Lexeme :=
  .name spec.name :: .colon :: joined (spec.fields.map Field.lexemes)

/-- The parts of a field are among those of its node type. -/
theorem NodeSpec.mem_lexemes {spec : NodeSpec} {field : Field} {part : Lexeme}
    (listed : field ∈ spec.fields) (member : part ∈ field.lexemes) : part ∈ spec.lexemes := by
  have inside := mem_joined (List.mem_map_of_mem listed) member
  simp [lexemes, inside]

/-- Items are derived from their parts with commas between them, if each is derived from its
parts and from no others. -/
theorem separated_iff {α : Type} {is : List Lexeme → α → Prop} {lexemes : α → List Lexeme}
    {items : List α} (each : ∀ item ∈ items, ∀ parts, is parts item ↔ parts = lexemes item)
    (parts : List Lexeme) :
    Separated is parts items ↔ items ≠ [] ∧ parts = joined (items.map lexemes) := by
  -- A single item has no comma behind it, so the last item is told apart from the others.
  induction items generalizing parts with
  | nil =>
    constructor
    · rintro ⟨⟩
    · rintro ⟨filled, _⟩
      exact absurd rfl filled
  | cons item rest ih =>
    have first := each item (by simp)
    have later := ih fun item member => each item (by simp [member])
    cases rest with
    | nil =>
      rw [List.map_singleton, joined_singleton, ← first]
      constructor
      · intro separated
        cases separated with
        | one holds => exact ⟨by simp, holds⟩
        | more _ others => exact absurd rfl ((later _).mp others).1
      · exact fun ⟨_, holds⟩ => .one holds
    | cons next rest =>
      rw [List.map_cons, joined_cons _ (by simp)]
      constructor
      · intro separated
        cases separated with
        | more holds others =>
          rw [(first _).mp holds, ((later _).mp others).2]
          exact ⟨by simp, rfl⟩
      · rintro ⟨_, rfl⟩
        exact .more ((first _).mpr rfl) ((later _).mpr ⟨by simp, rfl⟩)

/-- A type is derived from its parts, and from no others. -/
theorem isType_iff {parts : List Lexeme} {type : FieldType} :
    IsType parts type ↔ parts = type.lexemes := by
  induction type generalizing parts with
  | ellipsis =>
    constructor
    · rintro ⟨⟩
      rfl
    · rintro rfl
      exact .ellipsis
  | named name arguments ih =>
    have all := separated_iff fun type member _ => ih type member
    constructor
    · intro is
      cases is with
      | plain => rfl
      | generic _ separated =>
        obtain ⟨filled, rfl⟩ := (all _).mp separated
        rw [FieldType.lexemes_named name filled]
    · rintro rfl
      -- Without arguments there are no brackets either.
      by_cases empty : arguments = []
      · subst empty
        exact .plain name
      · rw [FieldType.lexemes_named name empty]
        exact .generic name ((all _).mpr ⟨empty, rfl⟩)

/-- A field is derived from its parts, and from no others. -/
theorem isField_iff {parts : List Lexeme} {field : Field} :
    IsField parts field ↔ parts = field.lexemes := by
  constructor
  · rintro ⟨name, is⟩
    rw [Field.lexemes, ← isType_iff.mp is]
  · rintro rfl
    exact .typed field.name (isType_iff.mpr rfl)

/-- A node type with a field is derived from its parts, and from no others. -/
theorem isDescription_iff {parts : List Lexeme} {spec : NodeSpec} :
    IsDescription parts spec ↔ spec.fields ≠ [] ∧ parts = spec.lexemes := by
  have all := @separated_iff Field IsField Field.lexemes spec.fields fun _ _ _ => isField_iff
  constructor
  · rintro ⟨name, separated⟩
    obtain ⟨filled, rfl⟩ := (all _).mp separated
    exact ⟨filled, rfl⟩
  · rintro ⟨filled, rfl⟩
    exact .described spec.name ((all _).mpr ⟨filled, rfl⟩)

end LoxLang.Family
