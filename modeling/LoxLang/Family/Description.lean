import LoxLang.Source.Segment
import LoxLang.Text.Blank

/-! Descriptions of node types, a name and its typed fields on one line. -/

namespace LoxLang.Family

/-- The smallest parts of a description. -/
inductive Lexeme where
  | name (text : String)
  | colon
  | comma
  | opening
  | closing
  | ellipsis
deriving DecidableEq, Repr

/-- The parts of a description; spaces and tabs may stand between them, and nothing else. -/
def lexemes? : List Char → Option (List Lexeme)
  | [] => some []
  | '.' :: '.' :: '.' :: rest => (lexemes? rest).map (.ellipsis :: ·)
  | c :: cs =>
    if c = ' ' ∨ c = '\t' then lexemes? cs
    else if c = ':' then (lexemes? cs).map (.colon :: ·)
    else if c = ',' then (lexemes? cs).map (.comma :: ·)
    else if c = '[' then (lexemes? cs).map (.opening :: ·)
    else if c = ']' then (lexemes? cs).map (.closing :: ·)
    else if isAlpha c then
      let tail := runLength isAlphanumeric cs
      (lexemes? (cs.drop tail)).map (.name (String.ofList (c :: cs.take tail)) :: ·)
    else none
termination_by cs => cs.length
decreasing_by
  all_goals simp only [List.length_drop, List.length_cons]; omega

/-- The type of a field: a name, possibly with types as arguments, or an ellipsis. -/
inductive FieldType where
  | ellipsis
  | named (name : String) (arguments : List FieldType)
deriving Inhabited

namespace FieldType

mutual

/-- The text of a type: arguments in brackets, a comma and a space between two. -/
def text : FieldType → String
  | ellipsis => "..."
  | named name [] => name
  | named name (first :: rest) => name ++ "[" ++ ", ".intercalate (text first :: texts rest) ++ "]"

/-- The texts of several types. -/
def texts : List FieldType → List String
  | [] => []
  | first :: rest => text first :: texts rest

end

mutual

/-- How deep types stand inside a type. -/
def depth : FieldType → Nat
  | ellipsis => 0
  | named _ arguments => depthOfAll arguments

/-- How deep types stand in a list, those of the list itself included. -/
def depthOfAll : List FieldType → Nat
  | [] => 0
  | first :: rest => max (depth first + 1) (depthOfAll rest)

end

end FieldType

/-- A field of a node: its type and its name. -/
structure Field where
  type : FieldType
  name : String
deriving Inhabited

/-- A node type: its name and its fields. -/
structure NodeSpec where
  name : String
  fields : List Field
deriving Inhabited

/-- The types around the one being read: the name of each, and its arguments so far,
the last one first. -/
abbrev Pending := List (String × List FieldType)

mutual

/-- Reads a type and all that follows it, inside the types that are still open and behind
the fields read so far. -/
def readType (pending : Pending) (fields : List Field) : List Lexeme → Option (List Field)
  | .ellipsis :: rest => readAfter pending fields .ellipsis rest
  | .name outer :: .opening :: rest => readType ((outer, []) :: pending) fields rest
  | .name plain :: rest => readAfter pending fields (.named plain []) rest
  | _ => none

/-- Reads what follows a type: more arguments, the end of the type around it, or the
name of its field. -/
def readAfter (pending : Pending) (fields : List Field) (type : FieldType) :
    List Lexeme → Option (List Field)
  | .comma :: rest =>
    match pending with
    | (outer, arguments) :: pending => readType ((outer, type :: arguments) :: pending) fields rest
    | [] => none
  | .closing :: rest =>
    match pending with
    | (outer, arguments) :: pending =>
      readAfter pending fields (.named outer (type :: arguments).reverse) rest
    | [] => none
  | [.name name] => if pending.isEmpty then some ({ type, name } :: fields).reverse else none
  | .name name :: .comma :: rest =>
    if pending.isEmpty then readType [] ({ type, name } :: fields) rest else none
  | _ => none

end

/-- The node type that the parts of a description give. -/
def specOf? : List Lexeme → Option NodeSpec
  | .name name :: .colon :: rest => (readType [] [] rest).map fun fields => { name, fields }
  | _ => none

/-- The node type that a line describes; white space around it does not matter. -/
def describe? (line : String) : Option NodeSpec := do
  specOf? (← lexemes? (Blank.strip line.toList))

end LoxLang.Family
