import LoxLang.Proofs.Tree.Parts

/-!
Trees whose tokens are exchanged for others that mean the same, such as the same tokens
further down.
-/

namespace LoxLang

/-- Whether exchanged tokens mean the same as the old ones: only their lines may differ. -/
def KeepsMeaning (change : Token → Token) : Prop :=
  ∀ t, (change t).kind = t.kind ∧ (change t).lexeme = t.lexeme ∧ (change t).literal = t.literal

/-- A mark whose token, if it is one, is exchanged. -/
def Mark.mapToken (change : Token → Token) : Mark → Mark
  | token t => token (change t)
  | data kind lexeme denoted line => data kind lexeme denoted line
  | stray typeName => stray typeName

/-- An expression whose tokens are exchanged. -/
def Expr.mapTokens (change : Token → Token) : Expr → Expr
  | literal value => literal value
  | grouping inner => grouping (inner.mapTokens change)
  | use name => use (name.mapToken change)
  | assign name value => assign (name.mapToken change) (value.mapTokens change)
  | unary operator operand => unary (operator.mapToken change) (operand.mapTokens change)
  | binary left operator right =>
    binary (left.mapTokens change) (operator.mapToken change) (right.mapTokens change)
  | unknown typeName => unknown typeName

mutual

/-- A statement whose tokens are exchanged. -/
def Stmt.mapTokens (change : Token → Token) : Stmt → Stmt
  | .expression inner => .expression (inner.mapTokens change)
  | .print inner => .print (inner.mapTokens change)
  | .declare name none => .declare (name.mapToken change) none
  | .declare name (some initial) =>
    .declare (name.mapToken change) (some (initial.mapTokens change))
  | .block body => .block (Stmt.mapAllTokens change body)
  | .unknown typeName => .unknown typeName

/-- Statements whose tokens are exchanged. -/
def Stmt.mapAllTokens (change : Token → Token) : List Stmt → List Stmt
  | [] => []
  | first :: rest => first.mapTokens change :: Stmt.mapAllTokens change rest

end

section

variable (change : Token → Token)

/-- Exchanged tokens do not change how deep an expression nests. -/
theorem Expr.nesting_mapTokens (e : Expr) : (e.mapTokens change).nesting = e.nesting := by
  induction e with
  | literal | use | unknown => rfl
  | grouping _ ih | assign _ _ ih | unary _ _ ih => rw [mapTokens, nesting, nesting, ih]
  | binary _ _ _ leftIh rightIh => rw [mapTokens, nesting, nesting, leftIh, rightIh]

mutual

/-- Exchanged tokens do not change how deep a statement nests. -/
theorem Stmt.depth_mapTokens (stmt : Stmt) : (stmt.mapTokens change).depth = stmt.depth := by
  match stmt with
  | .expression inner | .print inner | .declare _ (some inner) =>
    simp [mapTokens, depth, inner.nesting_mapTokens change]
  | .declare _ none | .unknown _ => rfl
  | .block body => simp [mapTokens, depth, Stmt.depths_mapAllTokens body]

/-- Exchanged tokens do not change how deep statements nest. -/
theorem Stmt.depths_mapAllTokens (program : List Stmt) :
    Stmt.depths (Stmt.mapAllTokens change program) = Stmt.depths program := by
  match program with
  | [] => rfl
  | first :: rest =>
    simp [Stmt.mapAllTokens, Stmt.depths, Stmt.depth_mapTokens first, Stmt.depths_mapAllTokens rest]

end

variable {change}

namespace Grammar

/-- Exchanged tokens are derived by the same rules, and their tree has the exchanged tokens. -/
theorem Derives.mapTokens {rule : Rule} {ts : List Token} {e : Expr} (derived : Derives rule ts e)
    (keeps : KeepsMeaning change) : Derives rule (ts.map change) (e.mapTokens change) := by
  -- The rules ask for kinds only, and take nothing but literals from a token.
  have kind (t : Token) : (change t).kind = t.kind := (keeps t).1
  have constant {t : Token} (primary : Derives .primary [change t] (.literal (change t).literal)) :
      Derives .primary [change t] (.literal t.literal) := by rwa [(keeps t).2.2] at primary
  induction derived with
  | assign isName isEqual _ ih => exact .assign ((kind _).trans isName) ((kind _).trans isEqual) ih
  | equality _ ih => exact .equality ih
  | operand _ ih => exact .operand ih
  | chain _ known _ leftIh rightIh =>
    rw [List.map_append, List.map_cons]
    exact .chain leftIh (by rwa [kind]) rightIh
  | prefixed known _ ih => exact .prefixed (by rwa [kind]) ih
  | primary _ ih => exact .primary ih
  | truth is => exact .truth ((kind _).trans is)
  | falsity is => exact .falsity ((kind _).trans is)
  | nothing is => exact .nothing ((kind _).trans is)
  | number is => exact constant (.number ((kind _).trans is))
  | string is => exact constant (.string ((kind _).trans is))
  | use is => exact .use ((kind _).trans is)
  | grouping opens _ closes ih =>
    rw [List.map_append, List.map_cons]
    exact .grouping ((kind _).trans opens) ih ((kind _).trans closes)

mutual

/-- A statement of exchanged tokens is the same statement with these tokens. -/
theorem Declaration.mapTokens {ts : List Token} {stmt : Stmt} (derived : Declaration ts stmt)
    (keeps : KeepsMeaning change) : Declaration (ts.map change) (stmt.mapTokens change) := by
  -- One case for each rule: the words, braces and semicolons around the parts keep their kinds.
  have kind (t : Token) : (change t).kind = t.kind := (keeps t).1
  match derived with
  | .declare isWord isName closes =>
    exact .declare ((kind _).trans isWord) ((kind _).trans isName) ((kind _).trans closes)
  | .declareAs isWord isName isEqual initial closes =>
    rw [List.map_append]
    exact .declareAs ((kind _).trans isWord) ((kind _).trans isName) ((kind _).trans isEqual)
      (initial.mapTokens keeps) ((kind _).trans closes)
  | .print isWord inner closes =>
    rw [List.map_append]
    exact .print ((kind _).trans isWord) (inner.mapTokens keeps) ((kind _).trans closes)
  | .block opens body closes =>
    rw [List.map_append]
    exact .block ((kind _).trans opens) (body.mapTokens keeps) ((kind _).trans closes)
  | .expression inner closes =>
    rw [List.map_append]
    exact .expression (inner.mapTokens keeps) ((kind _).trans closes)

/-- Statements of exchanged tokens are the same statements with these tokens. -/
theorem Declarations.mapTokens {ts : List Token} {program : List Stmt}
    (derived : Declarations ts program) (keeps : KeepsMeaning change) :
    Declarations (ts.map change) (Stmt.mapAllTokens change program) := by
  match derived with
  | .none => exact .none
  | .more first rest =>
    rw [List.map_append]
    exact .more (first.mapTokens keeps) (rest.mapTokens keeps)

end

end Grammar

end

end LoxLang
