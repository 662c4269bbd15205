import LoxLang.Tree.Basic

/-!
The marks in a tree that name variables, that it assigns to or declares, and trees with
other marks in their place.
-/

namespace LoxLang

namespace Expr

/-- The marks that name variables in an expression, from left to right. -/
def names : Expr → List Mark
  | literal _ | unknown _ => []
  | grouping inner | unary _ inner => inner.names
  | use name => [name]
  | assign name value => name :: value.names
  | binary left _ right => left.names ++ right.names

/-- The marks that an expression assigns to, from left to right. -/
def targets : Expr → List Mark
  | literal _ | use _ | unknown _ => []
  | grouping inner | unary _ inner => inner.targets
  | assign name value => name :: value.targets
  | binary left _ right => left.targets ++ right.targets

/-- An expression whose variables are named by other marks. -/
def mapNames (change : Mark → Mark) : Expr → Expr
  | literal value => literal value
  | grouping inner => grouping (inner.mapNames change)
  | use name => use (change name)
  | assign name value => assign (change name) (value.mapNames change)
  -- Operators are no names.
  | unary operator operand => unary operator (operand.mapNames change)
  | binary left operator right => binary (left.mapNames change) operator (right.mapNames change)
  | unknown typeName => unknown typeName

/-- An expression whose names stay is the same. -/
@[simp] theorem mapNames_id (e : Expr) : e.mapNames id = e := by
  induction e with
  | literal | use | unknown => rfl
  | grouping _ ih | unary _ _ ih => rw [mapNames, ih]
  | assign _ _ ih => rw [mapNames, ih, id]
  | binary _ _ _ leftIh rightIh => rw [mapNames, leftIh, rightIh]

end Expr

namespace Stmt

mutual

/-- The marks that name variables in a statement, from left to right. -/
def names : Stmt → List Mark
  | .expression inner | .print inner => inner.names
  | .declare name none => [name]
  | .declare name (some initial) => name :: initial.names
  | .block body => namesOf body
  | .unknown _ => []

/-- The marks that name variables in statements, from left to right. -/
def namesOf : List Stmt → List Mark
  | [] => []
  | first :: rest => names first ++ namesOf rest

end

mutual

/-- The marks that a statement assigns to anywhere in it, from left to right. -/
def targets : Stmt → List Mark
  | .expression inner | .print inner | .declare _ (some inner) => inner.targets
  | .declare _ none | .unknown _ => []
  | .block body => targetsOf body

/-- The marks that statements assign to anywhere in them, from left to right. -/
def targetsOf : List Stmt → List Mark
  | [] => []
  | first :: rest => targets first ++ targetsOf rest

end

/-- The mark that a statement declares in the scope that it stands in; a block
declares nothing there. -/
def declared? : Stmt → Option Mark
  | .declare name _ => some name
  | .expression _ | .print _ | .block _ | .unknown _ => none

mutual

/-- A statement whose variables are named by other marks. -/
def mapNames (change : Mark → Mark) : Stmt → Stmt
  | .expression inner => .expression (inner.mapNames change)
  | .print inner => .print (inner.mapNames change)
  | .declare name none => .declare (change name) none
  | .declare name (some initial) => .declare (change name) (some (initial.mapNames change))
  | .block body => .block (mapAllNames change body)
  | .unknown typeName => .unknown typeName

/-- Statements whose variables are named by other marks. -/
def mapAllNames (change : Mark → Mark) : List Stmt → List Stmt
  | [] => []
  | first :: rest => mapNames change first :: mapAllNames change rest

end

mutual

/-- A statement whose names stay is the same. -/
@[simp] theorem mapNames_id (stmt : Stmt) : mapNames id stmt = stmt := by
  cases stmt with
  | expression | print => rw [mapNames, Expr.mapNames_id]
  | declare name initial => cases initial <;> simp [mapNames]
  | block body => rw [mapNames, mapAllNames_id]
  | unknown => rfl

/-- Statements whose names stay are the same. -/
@[simp] theorem mapAllNames_id (program : List Stmt) : mapAllNames id program = program := by
  cases program with
  | nil => rfl
  | cons first rest => rw [mapAllNames, mapNames_id, mapAllNames_id]

end

end Stmt

end LoxLang
