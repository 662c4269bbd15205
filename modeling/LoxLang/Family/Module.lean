import LoxLang.Family.Description
import LoxLang.Host

/-! Families of node types written out as the text of a module. -/

namespace LoxLang.Family

variable [Host]

/-- Why a module cannot be written. -/
inductive DefinitionError where
  | invalid (line : String)
  | duplicate (name : String)
  | nestedTooDeeply
deriving DecidableEq, Repr

/-- The wording of a definition error. -/
def DefinitionError.message : DefinitionError → String
  | invalid _ => "invalid node description"
  | duplicate name => "duplicate node name " ++ name
  | nestedTooDeeply => "node description nested too deeply"

/-- The node type that a line describes, or the complaint that it describes none. -/
def describe (line : String) : Except DefinitionError NodeSpec :=
  match describe? line with
  | some spec =>
    if spec.fields.all (·.type.depth < nestingLimit) then .ok spec else .error .nestedTooDeeply
  | none => .error (.invalid line)

/-- Lines, each with its end. -/
def unlines (lines : List String) : String :=
  String.join (lines.map (· ++ "\n"))

/-- The lines in front of every class. -/
def classLead : List String :=
  ["", "", "@dataclass(frozen=True)"]

/-- The lines of the class that a family shares. -/
def baseLines (base : String) : List String :=
  classLead ++ ["class " ++ base ++ ":", "    \"\"\"Base class for all " ++ base ++ " nodes.\"\"\""]

/-- The lines of the class of one node type. -/
def specLines (base : String) (spec : NodeSpec) : List String :=
  classLead ++ ["class " ++ spec.name ++ "(" ++ base ++ "):"] ++
    spec.fields.map fun field => "    " ++ field.name ++ ": " ++ field.type.text

/-- The text of a family of node types. -/
def renderFamily (base : String) (specs : List NodeSpec) : String :=
  unlines (baseLines base ++ specs.flatMap (specLines base))

/-- The text of a family given by the lines that describe its node types. -/
def defineFamily (base : String) (lines : List String) : Except DefinitionError String := do
  return renderFamily base (← lines.mapM describe)

/-- Families by their bases, in order. -/
abbrev Families := List (String × List String)

/-- Gives a family its lines, in its old place if its base is there already. -/
def Families.set (base : String) (lines : List String) : Families → Families
  | [] => [(base, lines)]
  | (other, old) :: rest =>
    if other = base then (base, lines) :: rest else (other, old) :: Families.set base lines rest

/-- Families in which a base that occurs again takes the later lines. -/
def Families.ofPairs (pairs : List (String × List String)) : Families :=
  pairs.foldl (fun families (base, lines) => Families.set base lines families) []

/-- The lines of all families, in order. -/
def Families.lines (families : Families) : List String :=
  families.flatMap (·.2)

/-- Checks lines in turn: each describes a node type whose name has not been taken. -/
def checkLines (taken : List String) : List String → Except DefinitionError Unit
  | [] => .ok ()
  | line :: rest => do
    let spec ← describe line
    if taken.contains spec.name then .error (.duplicate spec.name)
    else checkLines (spec.name :: taken) rest

/-- What stands in front of all families. -/
def moduleHeader : String :=
  unlines
    ["\"\"\"Abstract Syntax Tree (AST) definitions for the Lox language.",
      "",
      "Generated by lox.tool.generate_ast. Every node is an immutable dataclass",
      "belonging to one of two closed families: expressions (Expr) and",
      "statements (Stmt).",
      "\"\"\"",
      "",
      "from __future__ import annotations",
      "",
      "from dataclasses import dataclass",
      "from typing import Any, Optional, Tuple",
      "",
      "from .tokens import Token"]

/-- The text of a module with the given families; no two classes in it have the same name. -/
def defineModule (families : Families) : Except DefinitionError String := do
  checkLines (families.map (·.1)) families.lines
  let texts ← families.mapM fun (base, lines) => defineFamily base lines
  return moduleHeader ++ String.join texts

/-- The families of the language's own trees. -/
def standardFamilies : Families :=
  [("Expr",
      ["Assign   : Token name, Expr value",
        "Binary   : Expr left, Token operator, Expr right",
        "Grouping : Expr expression",
        "Literal  : Any value",
        "Unary    : Token operator, Expr right",
        "Variable : Token name"]),
    ("Stmt",
      ["Block      : Tuple[Stmt, ...] statements",
        "Expression : Expr expression",
        "If         : Expr condition, Stmt then_branch, Optional[Stmt] else_branch",
        "Print      : Expr expression",
        "Var        : Token name, Optional[Expr] initializer",
        "While      : Expr condition, Stmt body"])]

end LoxLang.Family
