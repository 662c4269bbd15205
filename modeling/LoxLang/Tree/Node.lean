import LoxLang.Json.Basic
import LoxLang.Token.Kind

/-! Trees as they are stored: any node may hold any other, plain data or a list. -/

namespace LoxLang

/--
A stored tree.

Besides the nodes of a program it may be plain data, a token with any data in its fields, or a list.
-/
inductive Node where
  | null
  | bool (truth : Bool)
  | int (value : Int)
  | number (value : Float)
  | string (text : String)
  /-- A string that holds half of a pair. -/
  | garbled (text : Garbled)
  | nil
  | token (kind : Kind) (lexeme literal line : Json)
  | list (items : List Node)
  | block (statements : List Node)
  | expression (inner : Node)
  | print (inner : Node)
  | declare (name initial : Node)
  | conditional (condition thenBranch elseBranch : Node)
  | loop (condition body : Node)
  | assign (name value : Node)
  | binary (left operator right : Node)
  | grouping (inner : Node)
  | literal (value : Node)
  | unary (operator operand : Node)
  | use (name : Node)
deriving Inhabited

namespace Node

/-- The string that a text is. -/
def ofText : Text → Node
  | .plain text => string text
  | .garbled text => garbled text

mutual

/-- Whether two trees are one. -/
def beq : Node → Node → Bool
  | null, null | nil, nil => true
  | bool a, bool b => a == b
  | int a, int b => a == b
  | number a, number b => decide (a = b)
  | string a, string b => a == b
  | garbled a, garbled b => a == b
  | token kind lexeme denoted line, token kind' lexeme' denoted' line' =>
    kind == kind' && lexeme == lexeme' && denoted == denoted' && line == line'
  | list items, list items' => beqAll items items'
  | block statements, block statements' => beqAll statements statements'
  | expression inner, expression inner' => beq inner inner'
  | print inner, print inner' => beq inner inner'
  | declare name initial, declare name' initial' => beq name name' && beq initial initial'
  | conditional condition thenBranch elseBranch, conditional condition' thenBranch' elseBranch' =>
    beq condition condition' && beq thenBranch thenBranch' && beq elseBranch elseBranch'
  | loop condition body, loop condition' body' => beq condition condition' && beq body body'
  | assign name value, assign name' value' => beq name name' && beq value value'
  | binary left operator right, binary left' operator' right' =>
    beq left left' && beq operator operator' && beq right right'
  | grouping inner, grouping inner' => beq inner inner'
  | literal value, literal value' => beq value value'
  | unary operator operand, unary operator' operand' =>
    beq operator operator' && beq operand operand'
  | use name, use name' => beq name name'
  | _, _ => false

/-- Whether two lists of trees are one. -/
def beqAll : List Node → List Node → Bool
  | [], [] => true
  | first :: rest, first' :: rest' => beq first first' && beqAll rest rest'
  | [], _ :: _ | _ :: _, [] => false

end

mutual

/-- Trees are found to be one exactly if they are. -/
theorem beq_iff (a b : Node) : beq a b = true ↔ a = b := by
  -- Trees of different forms are told apart by the forms, and others by their parts.
  cases a <;> cases b <;> simp [beq, beq_iff, beqAll_iff, and_assoc]

/-- Lists of trees are found to be one exactly if they are. -/
theorem beqAll_iff (a b : List Node) : beqAll a b = true ↔ a = b := by
  cases a <;> cases b <;> simp [beqAll, beq_iff, beqAll_iff]

end

instance : DecidableEq Node := fun a b => decidable_of_iff (beq a b = true) (beq_iff a b)

/-- The name of the type of a node. -/
def typeName : Node → String
  | null => "NoneType"
  | bool _ => "bool"
  | int _ => "int"
  | number _ => "float"
  | string _ | garbled _ => "str"
  | nil => "NilVal"
  | token .. => "Token"
  | list _ => "list"
  | block _ => "Block"
  | expression _ => "Expression"
  | print _ => "Print"
  | declare .. => "Var"
  | conditional .. => "If"
  | loop .. => "While"
  | assign .. => "Assign"
  | binary .. => "Binary"
  | grouping _ => "Grouping"
  | literal _ => "Literal"
  | unary .. => "Unary"
  | use _ => "Variable"

mutual

/-- How deep a tree nests. -/
def height : Node → Nat
  | null | bool _ | int _ | number _ | string _ | garbled _ | nil | token .. => 0
  | list items => heights items + 1
  | block statements => heights statements + 1
  | expression inner => height inner + 1
  | print inner => height inner + 1
  | declare name initial => max (height name) (height initial) + 1
  | conditional condition thenBranch elseBranch =>
    max (height condition) (max (height thenBranch) (height elseBranch)) + 1
  | loop condition body => max (height condition) (height body) + 1
  | assign name value => max (height name) (height value) + 1
  | binary left operator right => max (height left) (max (height operator) (height right)) + 1
  | grouping inner => height inner + 1
  | literal value => height value + 1
  | unary operator operand => max (height operator) (height operand) + 1
  | use name => height name + 1

/-- How deep the deepest of several trees nests. -/
def heights : List Node → Nat
  | [] => 0
  | first :: rest => max (height first) (heights rest)

end

/-- Whether a tree is a list or a node of a program, and so holds other trees. -/
def isComposite : Node → Bool
  | null | bool _ | int _ | number _ | string _ | garbled _ | nil | token .. => false
  | list _ | block _ | expression _ | print _ | declare .. | conditional .. | loop .. | assign ..
  | binary .. | grouping _ | literal _ | unary .. | use _ => true

/-- The plain data that a tree is. -/
def data? : Node → Option Json
  | null => some .null
  | bool truth => some (.bool truth)
  | int i => some (.int i)
  | number x => some (.number x)
  | string s => some (.string s)
  | garbled text => some (.garbled text)
  | _ => none

mutual

/-- Whether two trees say the same: they have the same form, and plain data in them
says the same. -/
def same : Node → Node → Bool
  | nil, nil => true
  | token kind lexeme denoted line, token kind' lexeme' denoted' line' =>
    kind == kind' && lexeme.same lexeme' && denoted.same denoted' && line.same line'
  | list items, list items' => sameAll items items'
  | block statements, block statements' => sameAll statements statements'
  | expression inner, expression inner' => same inner inner'
  | print inner, print inner' => same inner inner'
  | declare name initial, declare name' initial' => same name name' && same initial initial'
  | conditional condition thenBranch elseBranch, conditional condition' thenBranch' elseBranch' =>
    same condition condition' && same thenBranch thenBranch' && same elseBranch elseBranch'
  | loop condition body, loop condition' body' => same condition condition' && same body body'
  | assign name value, assign name' value' => same name name' && same value value'
  | binary left operator right, binary left' operator' right' =>
    same left left' && same operator operator' && same right right'
  | grouping inner, grouping inner' => same inner inner'
  | literal value, literal value' => same value value'
  | unary operator operand, unary operator' operand' =>
    same operator operator' && same operand operand'
  | use name, use name' => same name name'
  | a, b =>
    match a.data?, b.data? with
    | some data, some data' => data.same data'
    | _, _ => false

/-- Whether two lists of trees say the same. -/
def sameAll : List Node → List Node → Bool
  | [], [] => true
  | first :: rest, first' :: rest' => same first first' && sameAll rest rest'
  | [], _ :: _ | _ :: _, [] => false

end

/-- Named parts between parentheses, behind the name of their type. -/
def record (name : String) (parts : List (String × String)) : String :=
  name ++ "(" ++ ", ".intercalate (parts.map fun (field, text) => field ++ "=" ++ text) ++ ")"

/-- Items between parentheses; a comma marks an item that stands alone. -/
def tuple : List String → String
  | [item] => "(" ++ item ++ ",)"
  | items => "(" ++ ", ".intercalate items ++ ")"

mutual

/-- A tree as it is shown where a value is shown: strings stand between quotes, and
a node names its fields. -/
def text : Node → String
  | null => "None"
  | bool true => "True"
  | bool false => "False"
  | int i => toString i
  | number x => Number.text x
  | string s => Quoted.encode s
  | garbled text => (Text.garbled text).quoted
  | nil => "nil"
  | token kind lexeme denoted line =>
    record "Token"
      [("type", "<TokenType." ++ kind.name ++ ": " ++ toString (Kind.all.idxOf kind + 1) ++ ">"),
        ("lexeme", lexeme.quoted), ("literal", denoted.quoted), ("line", line.quoted)]
  | list items => "[" ++ ", ".intercalate (texts items) ++ "]"
  | block statements => record "Block" [("statements", tuple (texts statements))]
  | expression inner => record "Expression" [("expression", text inner)]
  | print inner => record "Print" [("expression", text inner)]
  | declare name initial => record "Var" [("name", text name), ("initializer", text initial)]
  | conditional condition thenBranch elseBranch =>
    record "If"
      [("condition", text condition), ("then_branch", text thenBranch),
        ("else_branch", text elseBranch)]
  | loop condition body => record "While" [("condition", text condition), ("body", text body)]
  | assign name value => record "Assign" [("name", text name), ("value", text value)]
  | binary left operator right =>
    record "Binary" [("left", text left), ("operator", text operator), ("right", text right)]
  | grouping inner => record "Grouping" [("expression", text inner)]
  | literal value => record "Literal" [("value", text value)]
  | unary operator operand => record "Unary" [("operator", text operator), ("right", text operand)]
  | use name => record "Variable" [("name", text name)]

/-- Trees as they are shown where values are shown. -/
def texts : List Node → List String
  | [] => []
  | first :: rest => text first :: texts rest

end

end Node

end LoxLang
