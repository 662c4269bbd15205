import LoxLang.Host
import LoxLang.Tree.Node

/-! Stored trees as JSON values, and JSON values read as stored trees. -/

namespace LoxLang

/-- Why a JSON value is no stored tree. -/
inductive LoadError where
  | missingField (name : String)
  | unknownKind (written : Json)
  | unknownNode (written : Json)
  | notIterable (typeName : String)
  /-- A kind is asked for by something that is no name. -/
  | unusableName (typeName : String)

/-- The wording of a load error. -/
def LoadError.message : LoadError → String
  | missingField name => Quoted.encode name
  | unknownKind written => written.quoted
  | unknownNode written => "Unknown AST node type: " ++ written.shown
  | notIterable typeName => "'" ++ typeName ++ "' object is not iterable"
  | unusableName typeName => "unhashable type: '" ++ typeName ++ "'"

namespace Node

/-- A program node as an object that names its type. -/
def typed (name : String) (fields : List (Text × Json)) : Json :=
  .object (("type", .string name) :: fields)

mutual

/-- A stored tree as a JSON value. -/
def toJson : Node → Json
  | null => .null
  | bool truth => .bool truth
  | int i => .int i
  | number x => .number x
  | string s => .string s
  | garbled text => .garbled text
  | nil => .object [("__type__", .string "Nil")]
  | token kind lexeme denoted line =>
    .object
      [("__type__", .string "Token"), ("token_type", .string kind.name), ("lexeme", lexeme),
        ("literal", denoted), ("line", line)]
  | list items => .array (toJsons items)
  | block statements => typed "Block" [("statements", .array (toJsons statements))]
  | expression inner => typed "Expression" [("expression", toJson inner)]
  | print inner => typed "Print" [("expression", toJson inner)]
  | declare name initial => typed "Var" [("name", toJson name), ("initializer", toJson initial)]
  | conditional condition thenBranch elseBranch =>
    typed "If"
      [("condition", toJson condition), ("then_branch", toJson thenBranch),
        ("else_branch", toJson elseBranch)]
  | loop condition body => typed "While" [("condition", toJson condition), ("body", toJson body)]
  | assign name value => typed "Assign" [("name", toJson name), ("value", toJson value)]
  | binary left operator right =>
    typed "Binary" [("left", toJson left), ("operator", toJson operator), ("right", toJson right)]
  | grouping inner => typed "Grouping" [("expression", toJson inner)]
  | literal value => typed "Literal" [("value", toJson value)]
  | unary operator operand =>
    typed "Unary" [("operator", toJson operator), ("right", toJson operand)]
  | use name => typed "Variable" [("name", toJson name)]

/-- Stored trees as JSON values. -/
def toJsons : List Node → List Json
  | [] => []
  | first :: rest => toJson first :: toJsons rest

end

/-- The JSON value of a tree that does not nest too deeply. -/
def toJson? [Host] (tree : Node) : Option Json :=
  if tree.height ≤ nestingLimit then some tree.toJson else none

/-- What each field of an object would be as a stored tree. -/
abbrev Fields := List (Text × Except LoadError Node)

/-- A field that a node must have. -/
def Fields.need (fields : Fields) (name : String) : Except LoadError Node :=
  match fields.lookup (.plain name) with
  | some loaded => loaded
  | none => .error (.missingField name)

/-- A field that may be left out. -/
def Fields.optional (fields : Fields) (name : String) : Except LoadError Node :=
  match fields.lookup (.plain name) with
  | some loaded => loaded
  | none => .ok null

/-- A field of an object as it was written. -/
def written (object : List (Text × Json)) (name : String) : Except LoadError Json :=
  match object.lookup (.plain name) with
  | some value => .ok value
  | none => .error (.missingField name)

/-- The token that an object describes; the fields other than its kind are taken as they are. -/
def loadToken (object : List (Text × Json)) : Except LoadError Node := do
  let named ← written object "token_type"
  match named with
  | .string name =>
    match Kind.ofName? name with
    | some kind =>
      let lexeme ← written object "lexeme"
      let line ← written object "line"
      return token kind lexeme ((object.lookup (.plain "literal")).getD .null) line
    | none => .error (.unknownKind named)
  | .array _ | .object _ => .error (.unusableName named.typeName)
  | _ => .error (.unknownKind named)

/-- The statements of a block: the items of an array, the characters of a text or
the names of an object. -/
def loadStatements (object : List (Text × Json)) (fields : Fields) :
    Except LoadError (List Node) := do
  match ← written object "statements" with
  | .array _ =>
    match ← fields.need "statements" with
    | list items => return items
    | _ => return []
  | .string s => return s.toList.map fun c => string (String.singleton c)
  | .garbled text => return (Text.garbled text).pieces.map ofText
  | .object inner => return inner.map fun (name, _) => ofText name
  | other => .error (.notIterable other.typeName)

/-- The forms of the nodes of a program. -/
inductive Form where
  | block
  | expression
  | print
  | declare
  | conditional
  | loop
  | assign
  | binary
  | grouping
  | literal
  | unary
  | use
deriving DecidableEq

/-- The form with the given name. -/
def Form.ofName? : String → Option Form
  | "Block" => some block
  | "Expression" => some expression
  | "Print" => some print
  | "Var" => some declare
  | "If" => some conditional
  | "While" => some loop
  | "Assign" => some assign
  | "Binary" => some binary
  | "Grouping" => some grouping
  | "Literal" => some literal
  | "Unary" => some unary
  | "Variable" => some use
  | _ => none

/-- The node of a form that an object describes; its fields are asked for in turn, so the
first bad one decides. -/
def loadForm (object : List (Text × Json)) (fields : Fields) : Form → Except LoadError Node
  | .block => do return block (← loadStatements object fields)
  | .expression => do return expression (← fields.need "expression")
  | .print => do return print (← fields.need "expression")
  | .declare => do return declare (← fields.need "name") (← fields.optional "initializer")
  | .conditional => do
    return conditional (← fields.need "condition") (← fields.need "then_branch")
      (← fields.optional "else_branch")
  | .loop => do return loop (← fields.need "condition") (← fields.need "body")
  | .assign => do return assign (← fields.need "name") (← fields.need "value")
  | .binary => do
    return binary (← fields.need "left") (← fields.need "operator") (← fields.need "right")
  | .grouping => do return grouping (← fields.need "expression")
  | .literal => do return literal (← fields.need "value")
  | .unary => do return unary (← fields.need "operator") (← fields.need "right")
  | .use => do return use (← fields.need "name")

/-- The program node that an object with the name of a form describes. -/
def loadTyped (object : List (Text × Json)) (fields : Fields) (name : String) :
    Except LoadError Node :=
  match Form.ofName? name with
  | some form => loadForm object fields form
  | none => .error (.unknownNode (.string name))

/-- The stored tree that an object describes: a marker for nil or a token comes before a type. -/
def loadObject (object : List (Text × Json)) (fields : Fields) : Except LoadError Node :=
  match object.lookup (.plain "__type__") with
  | some (.string "Nil") => .ok nil
  | some (.string "Token") => loadToken object
  | _ =>
    match object.lookup (.plain "type") with
    | some (.string name) => loadTyped object fields name
    | some other => .error (.unknownNode other)
    | none => .error (.unknownNode .null)

mutual

/-- The stored tree that a JSON value describes. -/
def ofJson : Json → Except LoadError Node
  | .null => .ok null
  | .bool truth => .ok (bool truth)
  | .int i => .ok (int i)
  | .number x => .ok (number x)
  | .string s => .ok (string s)
  | .garbled text => .ok (garbled text)
  | .array items => do return list (← ofJsons items)
  | .object fields => loadObject fields (ofFields fields)

/-- The stored trees that JSON values describe, up to the first that describes none. -/
def ofJsons : List Json → Except LoadError (List Node)
  | [] => return []
  | first :: rest => do return (← ofJson first) :: (← ofJsons rest)

/-- What each field of an object describes. -/
def ofFields : List (Text × Json) → List (Text × Except LoadError Node)
  | [] => []
  | (name, value) :: rest => (name, ofJson value) :: ofFields rest

end

end Node

end LoxLang
