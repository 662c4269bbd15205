import LoxLang.Double
import LoxLang.Tree.Node

/-! Values at run time: truth, equality, the names of their types and the texts they show. -/

namespace LoxLang

/-- A stored tree that holds other trees. -/
structure Composite where
  tree : Node
  composite : tree.isComposite = true
deriving DecidableEq

/--
What a variable can hold.

Programs compute with nil, booleans, numbers and strings. All others enter only through trees
that were written by hand.
-/
inductive Value where
  | nil
  | bool (truth : Bool)
  | number (value : Double)
  | string (text : String)
  | int (value : Int)
  | null
  | token (kind : Kind) (lexeme literal line : Json)
  /-- A string that holds half of a pair. -/
  | garbled (text : Garbled)
  /-- A list or a node of a program. -/
  | loaded (tree : Composite)
deriving DecidableEq, Inhabited

/-- A token: its kind, the text it was read from, the value it denotes and the line it ends on. -/
structure Token where
  kind : Kind
  lexeme : String
  literal : Value := .null
  line : Int := 1
deriving DecidableEq, Inhabited

namespace Value

/-- Whether a value is one that a program can compute with. -/
def isProper : Value → Bool
  | nil | bool _ | number _ | string _ => true
  | int _ | null | token .. | garbled _ | loaded _ => false

/-- Whether a value is a number. -/
def isNumber : Value → Bool
  | number _ => true
  | _ => false

/-- Whether a value is a string. -/
def isString : Value → Bool
  | string _ | garbled _ => true
  | _ => false

/-- The string that a text is. -/
def ofText : Text → Value
  | .plain text => string text
  | .garbled text => garbled text

/-- The value that a stored tree is. -/
def ofNode (tree : Node) : Value :=
  match form : tree with
  | .null => null
  | .bool truth => bool truth
  | .int i => int i
  | .number x => number (.ofFloat x)
  | .string s => string s
  | .garbled text => garbled text
  | .nil => nil
  | .token kind lexeme denoted line => token kind lexeme denoted line
  | .list _ | .block _ | .expression _ | .print _ | .declare .. | .conditional .. | .loop ..
  | .assign ..
  | .binary .. | .grouping _ | .literal _ | .unary .. | .use _ =>
    loaded { tree, composite := by rw [form]; rfl }

/-- A value as a stored tree. -/
def toNode : Value → Node
  | nil => .nil
  | bool truth => .bool truth
  | number x => .number x.value
  | string s => .string s
  | int i => .int i
  | null => .null
  | token kind lexeme denoted line => .token kind lexeme denoted line
  | garbled text => .garbled text
  | loaded tree => tree.tree

/-- Only nil and false count as false. -/
def isTruthy : Value → Bool
  | nil => false
  | bool truth => truth
  | _ => true

/-- Equality of values: no value equals one of another type, and numbers are
compared by identity. -/
def isEqual : Value → Value → Bool
  | nil, nil => true
  | bool a, bool b => a == b
  | number a, number b => a.isSame b
  | string a, string b => a == b
  | int a, int b => a == b
  | null, null => true
  | token kind lexeme literal line, token kind' lexeme' literal' line' =>
    -- Tokens are one if their fields say the same.
    kind == kind' && lexeme.same lexeme' && literal.same literal' && line.same line'
  | garbled a, garbled b => a == b
  | loaded a, loaded b => a.tree.same b.tree
  | _, _ => false

/-- The name of a value's type. -/
def typeName : Value → String
  | nil => "nil"
  | bool _ => "boolean"
  | number _ => "number"
  | string _ | garbled _ => "string"
  | int _ => "int"
  | null => "NoneType"
  | token .. => "Token"
  | loaded tree => tree.tree.typeName

/-- The plain text of a value, as it stands inside the text of a token; a token
shows its kind and two fields. -/
def text : Value → Text
  | nil => "nil"
  | bool true => "True"
  | bool false => "False"
  | number x => Number.text x.value
  | string s => s
  | int i => toString i
  | null => "None"
  | token kind lexeme literal _ => kind.name ++ " " ++ lexeme.text ++ " " ++ literal.text
  | garbled text => .garbled text
  | loaded tree => tree.tree.text

/-- The text a program shows for a value. -/
def display : Value → Text
  | bool true => "true"
  | bool false => "false"
  | number x => Number.display x.value
  | other => other.text

end Value

/-- The text of a token: its kind, its lexeme and its literal. -/
def Token.text (t : Token) : String :=
  t.kind.name ++ " " ++ t.lexeme ++ " " ++ t.literal.text.escaped

end LoxLang
