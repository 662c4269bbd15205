import LoxLang.Tree.Basic
import LoxLang.Tree.Encoding

/-! Programs as stored trees, and stored trees read as programs. -/

namespace LoxLang

namespace Node

/-- The data that a token's literal is stored as. -/
def dataOfValue (value : Value) : Json :=
  value.toNode.toJson

/-- The literal that stored data stands for, if it holds no other data. -/
def valueOfData? : Json → Option Value
  | .null => some .null
  | .bool truth => some (.bool truth)
  | .int i => some (.int i)
  | .number x => some (.number (.ofFloat x))
  | .string s => some (.string s)
  | .garbled text => some (.garbled text)
  | .array _ | .object _ => none

/-- A token as a stored tree. -/
def ofToken (t : Token) : Node :=
  .token t.kind (.string t.lexeme) (dataOfValue t.literal) (.int t.line)

/-- A mark as a stored tree; of what is no token only the name of its type is left. -/
def ofMark : Mark → Node
  | .token t => ofToken t
  | .data kind lexeme denoted line => token kind lexeme denoted line
  | .stray typeName => string typeName

/-- The token with the given fields, if a source text can have it. -/
def sourceToken? (kind : Kind) (lexeme denoted line : Json) : Option Token :=
  match lexeme, valueOfData? denoted, line with
  | .string lexeme, some value, .int line => some { kind, lexeme, literal := value, line }
  | _, _, _ => none

/-- A node that stands where a token belongs. -/
def toMark : Node → Mark
  | token kind lexeme denoted line =>
    match sourceToken? kind lexeme denoted line with
    | some t => .token t
    | none => .data kind lexeme denoted line
  | other => .stray other.typeName

/-- An expression as a stored tree. -/
def ofExpr : Expr → Node
  | .literal value => literal value.toNode
  | .grouping inner => grouping (ofExpr inner)
  | .use name => use (ofMark name)
  | .assign name value => assign (ofMark name) (ofExpr value)
  | .unary operator operand => unary (ofMark operator) (ofExpr operand)
  | .binary left operator right => binary (ofExpr left) (ofMark operator) (ofExpr right)
  | .unknown typeName => string typeName

mutual

/-- A statement as a stored tree. -/
def ofStmt : Stmt → Node
  | .expression inner => expression (ofExpr inner)
  | .print inner => print (ofExpr inner)
  | .declare name none => declare (ofMark name) null
  | .declare name (some initial) => declare (ofMark name) (ofExpr initial)
  | .block body => block (ofStmts body)
  | .unknown typeName => string typeName

/-- Statements as stored trees. -/
def ofStmts : List Stmt → List Node
  | [] => []
  | first :: rest => ofStmt first :: ofStmts rest

end

/-- A program as a stored tree. -/
def ofProgram (program : List Stmt) : Node :=
  list (ofStmts program)

/-- A node read as an expression. -/
def toExpr : Node → Expr
  | literal value => .literal (.ofNode value)
  | grouping inner => .grouping (toExpr inner)
  | use name => .use name.toMark
  | assign name value => .assign name.toMark (toExpr value)
  | unary operator operand => .unary operator.toMark (toExpr operand)
  | binary left operator right => .binary (toExpr left) operator.toMark (toExpr right)
  | other => .unknown other.typeName

mutual

/-- A node read as a statement. -/
def toStmt : Node → Stmt
  | expression inner => .expression inner.toExpr
  | print inner => .print inner.toExpr
  | declare name null => .declare name.toMark none
  | declare name initial => .declare name.toMark (some initial.toExpr)
  | block statements => .block (toStmts statements)
  | other => .unknown other.typeName

/-- Nodes read as statements. -/
def toStmts : List Node → List Stmt
  | [] => []
  | first :: rest => toStmt first :: toStmts rest

end

/-- A node read as a program: a list is its items, a text is its characters, and nothing
else has parts to run. -/
def toProgram? : Node → Option (List Stmt)
  | list items => some (toStmts items)
  | string s => some (s.toList.map fun _ => .unknown "str")
  | garbled text => some (text.glyphs.map fun _ => .unknown "str")
  | _ => none

end Node

end LoxLang
