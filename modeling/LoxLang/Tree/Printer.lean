import LoxLang.Host
import LoxLang.Tree.Stored

/-! Trees as text: every node in parentheses, its name first. -/

namespace LoxLang

namespace Value

/-- A literal as it stands in the text of a tree: absent ones are nil, and whole
numbers keep their fraction. -/
def literalText : Value → Text
  | null => "nil"
  | bool true => "true"
  | bool false => "false"
  | other => other.text

end Value

namespace Node

/-- The full name of the type of a node, as a message shows it. -/
def className : Node → String
  | nil => "<class 'lox.types.NilVal'>"
  | token .. => "<class 'lox.tokens.Token'>"
  | other => "<class '" ++ other.typeName ++ "'>"

/-- Why a tree has no text. -/
inductive Unprintable where
  | unexpected (className : String)
  /-- A name or an operator is no token. -/
  | unmarked (typeName : String)
  /-- A part is no text. -/
  | notText (typeName : String)
  /-- An item of a list is no text. -/
  | itemNotText (index : Nat) (typeName : String)
deriving DecidableEq, Repr

/-- The wording of a failure to print. -/
def Unprintable.message : Unprintable → String
  | unexpected className => "print: unexpected node type " ++ className
  | unmarked typeName => "'" ++ typeName ++ "' object has no attribute 'lexeme'"
  | notText typeName => "can only concatenate str (not \"" ++ typeName ++ "\") to str"
  | itemNotText index typeName =>
    "sequence item " ++ toString index ++ ": expected str instance, " ++ typeName ++ " found"

/-- What the token that names a node was read from. -/
def lexeme : Node → Except Unprintable Json
  | token _ lexeme .. => .ok lexeme
  | other => .error (.unmarked other.typeName)

/-- The text that data is, if it is a string. -/
def text? : Json → Option Text
  | .string text => some (.plain text)
  | .garbled text => some (.garbled text)
  | _ => none

/-- Data that must be a text. -/
def asText (data : Json) : Except Unprintable Text :=
  match text? data with
  | some text => .ok text
  | none => .error (.notText data.typeName)

/-- Lines that must be texts, from a given one on. -/
def asLines (index : Nat) : List Json → Except Unprintable (List Text)
  | [] => return []
  | data :: rest =>
    match text? data with
    | some text => do return text :: (← asLines (index + 1) rest)
    | none => .error (.itemNotText index data.typeName)

/-- Lines one below the other. -/
def joinLines : List Text → Text
  | [] => ""
  | [line] => line
  | line :: rest => line ++ "\n" ++ joinLines rest

/-- A name and parts in parentheses. -/
def parenthesize (name : Text) (parts : List Text) : Json :=
  .ofText ("(" ++ name ++ Text.join (parts.map (" " ++ ·)) ++ ")")

mutual

/--
The text of a tree, or why it has none.

A variable stands as what its name was read from, which is a text in all trees but
those written by hand.
-/
def render : Node → Except Unprintable Json
  | list items => do return .ofText (joinLines (← asLines 0 (← renderAll items)))
  | binary left operator right => do
    let name ← asText (← operator.lexeme)
    return parenthesize name [← asText (← render left), ← asText (← render right)]
  | grouping inner => do return parenthesize "group" [← asText (← render inner)]
  | literal value => return .ofText (Value.ofNode value).literalText
  | unary operator operand => do
    let name ← asText (← operator.lexeme)
    return parenthesize name [← asText (← render operand)]
  | use name => name.lexeme
  | assign name value => do
    let name ← name.lexeme
    return parenthesize ("= " ++ name.text) [← asText (← render value)]
  | expression inner => do return parenthesize ";" [← asText (← render inner)]
  | print inner => do return parenthesize "print" [← asText (← render inner)]
  | declare name null => do return .ofText ("(var " ++ (← name.lexeme).text ++ ")")
  | declare name initial => do
    let name ← name.lexeme
    return parenthesize ("var " ++ name.text ++ " =") [← asText (← render initial)]
  | block statements => do return parenthesize "block" (← renderTexts statements)
  | conditional condition thenBranch null => do
    return parenthesize "if" [← asText (← render condition), ← asText (← render thenBranch)]
  | conditional condition thenBranch elseBranch => do
    return parenthesize "if-else"
      [← asText (← render condition), ← asText (← render thenBranch),
        ← asText (← render elseBranch)]
  | loop condition body => do
    return parenthesize "while" [← asText (← render condition), ← asText (← render body)]
  | other => .error (.unexpected other.className)

/-- What several trees are rendered as. -/
def renderAll : List Node → Except Unprintable (List Json)
  | [] => return []
  | first :: rest => do return (← render first) :: (← renderAll rest)

/-- The texts of several trees, each of which must have one. -/
def renderTexts : List Node → Except Unprintable (List Text)
  | [] => return []
  | first :: rest => do return (← asText (← render first)) :: (← renderTexts rest)

end

/-- The text of a program; one that nests too deeply is only mentioned. -/
def renderProgram [Host] (program : List Stmt) : String :=
  let tree := ofProgram program
  if tree.height ≤ nestingLimit then
    match tree.render with
    | .ok rendered => rendered.shown
    | .error cause => cause.message
  else "<ast too deeply nested to print>"

end Node

end LoxLang
