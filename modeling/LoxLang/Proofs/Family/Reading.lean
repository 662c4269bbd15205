import LoxLang.Proofs.Family.Rules

/-! Reading a description finds exactly the node type that its parts are derived from. -/

namespace LoxLang.Family

/-- The parts of the types that are still open, up to the place of the next argument. -/
def Pending.lexemes (pending : Pending) : List Lexeme :=
  pending.reverse.flatMap fun (outer, arguments) =>
    .name outer :: .opening :: arguments.reverse.flatMap (·.lexemes ++ [.comma])

/-- The parts that have been read: those of the fields so far, and those of the
types that are still open. -/
def consumed (pending : Pending) (fields : List Field) : List Lexeme :=
  fields.reverse.flatMap (·.lexemes ++ [.comma]) ++ pending.lexemes

section

variable (pending : Pending) (fields : List Field)

/-- With a bracket behind a name, the name and the bracket have been read. -/
theorem consumed_opened (outer : String) :
    consumed ((outer, []) :: pending) fields =
      consumed pending fields ++ [.name outer, .opening] := by
  simp [consumed, Pending.lexemes]

/-- With a comma behind an argument, the argument and the comma have been read. -/
theorem consumed_argument (outer : String) (arguments : List FieldType) (type : FieldType) :
    consumed ((outer, type :: arguments) :: pending) fields =
      consumed ((outer, arguments) :: pending) fields ++ type.lexemes ++ [.comma] := by
  simp [consumed, Pending.lexemes]

/-- With the last argument and a bracket, the type around them has been read. -/
theorem consumed_closed (outer : String) (arguments : List FieldType) (type : FieldType) :
    consumed pending fields ++ (FieldType.named outer (type :: arguments).reverse).lexemes =
      consumed ((outer, arguments) :: pending) fields ++ type.lexemes ++ [.closing] := by
  have inner : joined ((type :: arguments).reverse.map FieldType.lexemes) =
      arguments.reverse.flatMap (·.lexemes ++ [.comma]) ++ type.lexemes := by
    rw [List.reverse_cons, List.map_append, List.map_singleton, joined_concat, List.flatMap_map]
  rw [FieldType.lexemes_named outer (by simp), inner]
  simp [consumed, Pending.lexemes]

/-- With a comma behind its name, a field and the comma have been read. -/
theorem consumed_field (field : Field) :
    consumed [] (field :: fields) = consumed [] fields ++ field.lexemes ++ [.comma] := by
  simp [consumed, Pending.lexemes]

/-- The last field and what has been read before it are all fields. -/
theorem joined_fields (field : Field) :
    joined ((field :: fields).reverse.map Field.lexemes) = consumed [] fields ++ field.lexemes := by
  rw [List.reverse_cons, List.map_append, List.map_singleton, joined_concat, List.flatMap_map]
  simp [consumed, Pending.lexemes]

end

mutual

/-- What is read from parts has the parts read before and these, in order. -/
theorem lexemes_of_readType {pending : Pending} {fields result : List Field} {parts : List Lexeme}
    (read : readType pending fields parts = some result) :
    result ≠ [] ∧ joined (result.map Field.lexemes) = consumed pending fields ++ parts := by
  -- Each branch moves parts from those to come to those that have been read.
  unfold readType at read
  split at read
  -- An ellipsis, a name with a bracket behind it, and a name by itself.
  next rest => simpa [FieldType.lexemes] using lexemes_of_readAfter read
  next outer rest => simpa [consumed_opened] using lexemes_of_readType read
  next plain rest _ => simpa [FieldType.lexemes] using lexemes_of_readAfter read
  next => cases read
termination_by parts.length

/-- What is read behind a type has the parts read before, those of the type and
those behind it, in order. -/
theorem lexemes_of_readAfter {pending : Pending} {fields result : List Field} {type : FieldType}
    {parts : List Lexeme} (read : readAfter pending fields type parts = some result) :
    result ≠ [] ∧ joined (result.map Field.lexemes) = consumed pending fields ++ type.lexemes ++
      parts := by
  -- A comma or a bracket belongs to the innermost type that is open, if there is
  -- one; a name ends a field.
  unfold readAfter at read
  split at read
  -- A comma within brackets.
  next rest =>
    cases pending with
    | nil => cases read
    | cons open_ pending => simpa [consumed_argument] using lexemes_of_readType read
  -- A closing bracket.
  next rest =>
    cases pending with
    | nil => cases read
    | cons open_ pending =>
      obtain ⟨filled, same⟩ := lexemes_of_readAfter read
      rw [consumed_closed] at same
      exact ⟨filled, by simpa using same⟩
  -- The name of the last field.
  next name =>
    cases pending with
    | cons => cases read
    | nil =>
      obtain rfl : ({ type, name } :: fields).reverse = result := by simpa using read
      rw [joined_fields]
      simp [Field.lexemes]
  -- The name of a field in front of others.
  next name rest =>
    cases pending with
    | cons => cases read
    | nil => simpa [consumed_field, Field.lexemes] using lexemes_of_readType read
  next => cases read
termination_by parts.length

end

section

variable (pending : Pending) (fields : List Field)

/-- The arguments of a type are read up to the bracket behind them, if each of them
is read as a type. -/
theorem readType_arguments (outer : String) {types : List FieldType} (filled : types ≠ [])
    (each : ∀ type ∈ types, ∀ pending rest, rest.head? ≠ some .opening →
      readType pending fields (type.lexemes ++ rest) = readAfter pending fields type rest)
    (arguments : List FieldType) (rest : List Lexeme) :
    readType ((outer, arguments) :: pending) fields
      (joined (types.map FieldType.lexemes) ++ .closing :: rest) =
      readAfter pending fields (.named outer (arguments.reverse ++ types)) rest := by
  induction types generalizing arguments with
  | nil => exact absurd rfl filled
  | cons type types ih =>
    have first := each type (by simp)
    cases types with
    | nil =>
      rw [List.map_singleton, joined_singleton, first _ _ (by simp), readAfter]
      simp
    | cons next types =>
      -- The comma ends the first argument, which the others then find among those already read.
      have later :=
        ih (by simp) (fun type member => each type (by simp [member])) (type :: arguments)
      rw [List.map_cons, joined_cons _ (by simp), List.append_assoc, first _ _ (by simp),
        List.cons_append, readAfter, later]
      simp

/-- The parts of a type are read as the type, if no bracket stands behind them. -/
theorem readType_lexemes (type : FieldType) {rest : List Lexeme}
    (ends : rest.head? ≠ some .opening) :
    readType pending fields (type.lexemes ++ rest) = readAfter pending fields type rest := by
  induction type generalizing pending rest with
  | ellipsis => rw [FieldType.lexemes, List.singleton_append, readType]
  | named name arguments ih =>
    -- A bracket behind a bare name would be taken for its own.
    by_cases empty : arguments = []
    · subst empty
      rw [FieldType.lexemes, List.singleton_append, readType]
      rintro behind rfl
      simp at ends
    · rw [FieldType.lexemes_named name empty]
      have all :=
        readType_arguments pending fields name empty
          (fun type member pending _ => ih type member pending) [] rest
      simpa [readType] using all

/-- The parts of fields are read as the fields, behind those that have been read. -/
theorem readType_fields {new : List Field} (filled : new ≠ []) :
    readType [] fields (joined (new.map Field.lexemes)) = some (fields.reverse ++ new) := by
  induction new generalizing fields with
  | nil => exact absurd rfl filled
  | cons field new ih =>
    cases new with
    | nil =>
      rw [List.map_singleton, joined_singleton, Field.lexemes, readType_lexemes _ _ _ (by simp),
        readAfter]
      simp
    | cons next new =>
      rw [List.map_cons, joined_cons _ (by simp), Field.lexemes, List.append_assoc,
        readType_lexemes _ _ _ (by simp), List.singleton_append, readAfter, ih _ (by simp)]
      simp

end

/-- Parts are read as a node type exactly if the node type is derived from them. -/
theorem specOf?_eq_some_iff {parts : List Lexeme} {spec : NodeSpec} :
    specOf? parts = some spec ↔ IsDescription parts spec := by
  rw [isDescription_iff]
  -- The parts that were consumed are those of the node type, and those are read back.
  constructor
  · intro read
    unfold specOf? at read
    split at read
    next name rest =>
      obtain ⟨fields, found, rfl⟩ := Option.map_eq_some_iff.mp read
      obtain ⟨filled, same⟩ := lexemes_of_readType found
      refine ⟨filled, ?_⟩
      simpa [NodeSpec.lexemes, consumed, Pending.lexemes] using same.symm
    next => cases read
  · rintro ⟨filled, rfl⟩
    rw [NodeSpec.lexemes, specOf?, readType_fields [] filled]
    rfl

end LoxLang.Family
