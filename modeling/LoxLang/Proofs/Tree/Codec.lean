import LoxLang.Proofs.Tree.Parts
import LoxLang.Tree.Stored

/-! Trees survive being stored: what is read back from their JSON values is what was written. -/

namespace LoxLang

/-- The name of a kind is that of no other. -/
theorem Kind.ofName?_name (kind : Kind) : Kind.ofName? kind.name = some kind := by
  cases kind <;> rfl

namespace Node

/-- A field is found under its own name, and under no other. -/
theorem lookup_cons {α : Type} (fields : List (Text × α)) (name other : Text) (value : α) :
    List.lookup other ((name, value) :: fields) =
      if other = name then some value else fields.lookup other := by
  by_cases same : other = name
  · simp [same]
  · have differs : (other == name) = false := by simpa using same
    simp [List.lookup_cons, differs, same]

/-- An object that names its type, and is not marked otherwise, is read as a node of that type. -/
theorem ofJson_typed {name : String} {fields : List (Text × Json)}
    (unmarked : ∀ field ∈ fields, field.1 ≠ "__type__") :
    ofJson (typed name fields) =
      loadTyped (("type", .string name) :: fields) (("type", .ok (string name)) :: ofFields fields)
        name := by
  -- The marker is looked for first, and only its absence lets the type decide.
  have missing : fields.lookup (.plain "__type__") = none := by
    rw [List.lookup_eq_none_iff]
    exact fun field member => by simpa using (unmarked field member).symm
  rw [typed, ofJson, loadObject, lookup_cons, if_neg (by decide), missing]
  simp [ofFields, ofJson]

mutual

/-- A stored tree is read back from its JSON value. -/
theorem ofJson_toJson (tree : Node) : ofJson tree.toJson = .ok tree := by
  -- The fields of a node are asked for by the names that they were stored under.
  cases tree with
  | null | bool | int | number | string | garbled | nil => rfl
  | token kind lexeme denoted line =>
    simp [toJson, ofJson, loadObject, loadToken, written, Kind.ofName?_name, lookup_cons, Bind.bind,
      Except.bind, Pure.pure, Except.pure]
  | list items =>
    simp [toJson, ofJson, ofJsons_toJsons items, Bind.bind, Except.bind, Pure.pure, Except.pure]
  | block statements =>
    -- The statements are looked at twice: as they were written, and as the list they are.
    have stored : ofJson (.array (toJsons statements)) = .ok (list statements) := by
      simp [ofJson, ofJsons_toJsons statements, Bind.bind, Except.bind, Pure.pure, Except.pure]
    simp [toJson, ofJson_typed, loadTyped, Form.ofName?, loadForm, loadStatements, written,
      ofFields, Fields.need, lookup_cons, stored, Bind.bind, Except.bind, Pure.pure, Except.pure]
  | expression inner | print inner | grouping inner | literal inner | use inner =>
    simp [toJson, ofJson_typed, loadTyped, Form.ofName?, loadForm, ofFields, Fields.need,
      lookup_cons, ofJson_toJson inner, Bind.bind, Except.bind, Pure.pure, Except.pure]
  | declare first second | loop first second | assign first second | unary first second =>
    simp [toJson, ofJson_typed, loadTyped, Form.ofName?, loadForm, ofFields, Fields.need,
      Fields.optional, lookup_cons, ofJson_toJson first, ofJson_toJson second, Bind.bind,
        Except.bind, Pure.pure, Except.pure]
  | conditional first second third | binary first second third =>
    simp [toJson, ofJson_typed, loadTyped, Form.ofName?, loadForm, ofFields, Fields.need,
      Fields.optional, lookup_cons, ofJson_toJson first, ofJson_toJson second, ofJson_toJson third,
        Bind.bind, Except.bind, Pure.pure, Except.pure]

/-- Stored trees are read back from their JSON values. -/
theorem ofJsons_toJsons (trees : List Node) : ofJsons (toJsons trees) = .ok trees := by
  cases trees with
  | nil => rfl
  | cons first rest =>
    simp [toJsons, ofJsons, ofJson_toJson first, ofJsons_toJsons rest, Bind.bind, Except.bind,
      Pure.pure, Except.pure]

end

/-- Whether the literal of a token is stored as plain data, from which it can be told. -/
def IsPlainToken (t : Token) : Prop :=
  valueOfData? (dataOfValue t.literal) = some t.literal

/-- The tokens of a source text have plain literals. -/
theorem isPlainToken_of_mem_scanTokens {source : String} {t : Token}
    (member : t ∈ scanTokens source) :
    IsPlainToken t := by
  obtain ⟨tokens, last, same, lawful⟩ := scanTokens_ends source
  rw [same, List.mem_append, List.mem_singleton] at member
  rcases member with member | rfl
  · -- The literal is a number, a text or nothing, and never one of the values that need a marker.
    have literal := (lawful t member).1
    unfold Token.HasLiteral at literal
    split at literal
    · obtain ⟨x, is⟩ := literal
      rw [IsPlainToken, is]
      rfl
    · obtain ⟨s, is⟩ := literal
      rw [IsPlainToken, is]
      rfl
    · rw [IsPlainToken, literal]
      rfl
  · rfl

/-- A token with a plain literal is read back as it was. -/
theorem toMark_ofMark {t : Token} (plain : IsPlainToken t) :
    (ofMark (.token t)).toMark = .token t := by
  -- The word and the line are stored as a text and a whole number, so only the
  -- literal is in question.
  have read : sourceToken? t.kind (.string t.lexeme) (dataOfValue t.literal) (.int t.line) =
      some t := by
    unfold sourceToken?
    rw [plain]
  rw [ofMark, ofToken, toMark, read]

/-- Whether a value is read back as it was; the sign of an undefined number is not stored. -/
def IsPlainValue (value : Value) : Prop :=
  Value.ofNode value.toNode = value

/-- The tokens of a source text, and the values that they stand for, are read back as they were. -/
theorem supplies_plain (source : String) :
    Supplies IsPlainToken IsPlainValue (scanTokens source) := by
  refine (supplies_scanTokens source).mono (fun _ => isPlainToken_of_mem_scanTokens) ?_
  rintro _ ⟨⟩ <;> rfl

/-- An expression whose tokens have plain literals is read back as it was. -/
theorem toExpr_ofExpr {e : Expr} (made : e.MadeOf IsPlainToken IsPlainValue) :
    (ofExpr e).toExpr = e := by
  induction made with
  | literal storable => rw [ofExpr, toExpr, storable]
  | grouping _ ih => rw [ofExpr, toExpr, ih]
  | use plain => rw [ofExpr, toExpr, toMark_ofMark plain]
  | assign plain _ ih => rw [ofExpr, toExpr, toMark_ofMark plain, ih]
  | unary plain _ _ ih => rw [ofExpr, toExpr, toMark_ofMark plain, ih]
  | binary _ plain _ _ leftIh rightIh => rw [ofExpr, toExpr, toMark_ofMark plain, leftIh, rightIh]

/-- No expression is stored as nothing. -/
theorem ofExpr_ne_null (e : Expr) : ofExpr e ≠ null := by
  cases e <;> simp [ofExpr]

/-- A declaration with something for its value is read as one with an expression. -/
theorem toStmt_declare (name : Node) {initial : Node} (present : initial ≠ null) :
    toStmt (declare name initial) = .declare name.toMark (some initial.toExpr) := by
  -- Nothing stands for a declaration without a value, and only that is read in another way.
  cases initial <;> first | rfl | exact absurd rfl present

/-- Statements that are read back one by one are read back together. -/
theorem toStmts_ofStmts {program : List Stmt}
    (each : ∀ stmt ∈ program, (ofStmt stmt).toStmt = stmt) :
    toStmts (ofStmts program) = program := by
  induction program with
  | nil => rfl
  | cons first rest ih =>
    rw [ofStmts, toStmts, each first (by simp), ih fun stmt member => each stmt (by simp [member])]

/-- A statement whose tokens have plain literals is read back as it was. -/
theorem toStmt_ofStmt {stmt : Stmt} (made : stmt.MadeOf IsPlainToken IsPlainValue) :
    (ofStmt stmt).toStmt = stmt := by
  -- The induction gives what the statements of a block are read as, one by one.
  induction made with
  | expression inner => rw [ofStmt, toStmt, toExpr_ofExpr inner]
  | print inner => rw [ofStmt, toStmt, toExpr_ofExpr inner]
  | declare plain => rw [ofStmt, toStmt, toMark_ofMark plain]
  | declareAs plain initial =>
    rw [ofStmt, toStmt_declare _ (ofExpr_ne_null _), toMark_ofMark plain, toExpr_ofExpr initial]
  | block _ ih => rw [ofStmt, toStmt, toStmts_ofStmts ih]

/-- A program whose tokens have plain literals is read back as it was. -/
theorem toProgram?_ofProgram {program : List Stmt}
    (made : ∀ stmt ∈ program, stmt.MadeOf IsPlainToken IsPlainValue) :
    (ofProgram program).toProgram? = some program := by
  rw [ofProgram, toProgram?, toStmts_ofStmts fun stmt member => toStmt_ofStmt (made stmt member)]

end Node

end LoxLang
