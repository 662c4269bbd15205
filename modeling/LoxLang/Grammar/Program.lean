import LoxLang.Grammar.Expression
import LoxLang.Host
import LoxLang.Source.Scan

/-!
Declarations and programs read from tokens, with recovery at the next statement after a mistake.
-/

namespace LoxLang.Parse

/--
Declarations up to a token that ends them; those with a mistake are left out.

Every declaration takes at least one token, so the tokens themselves, taken as a clock, do
not run out before they end.
-/
def declarationsUntil (closing : Kind → Bool) (item : Parse (Option Stmt)) :
    List Token → Parse (List Stmt)
  | [] => overrun
  | _ :: clock => do
    let token ← peek
    if closing token.kind then return []
    else
      let first ← item
      let rest ← declarationsUntil closing item clock
      return first.toList ++ rest

/-- Whether a token ends a block, or the whole input. -/
def closesBlock (kind : Kind) : Bool :=
  kind == .rightBrace || kind == .eof

/-- The declarations of a block and its closing brace. -/
def blockBody (item : Parse (Option Stmt)) : Parse (List Stmt) := do
  let body ← fun tokens => declarationsUntil closesBlock item tokens tokens
  let _ ← expect .rightBrace .unclosedBlock
  return body

/-- What follows the word that declares a variable, with so much room for its value. -/
def variableDeclaration (room : Nat) : Parse Stmt := do
  let name ← expect .identifier .missingVariableName
  match ← accept? (· == .equal) with
  | some _ =>
    let initial ← assignment room
    let _ ← expect .semicolon .unfinishedDeclaration
    return .declare name (some initial)
  | none =>
    let _ ← expect .semicolon .unfinishedDeclaration
    return .declare name none

/-- What follows the word that prints, with so much room for the value. -/
def printStatement (room : Nat) : Parse Stmt := do
  let value ← assignment room
  let _ ← expect .semicolon .unfinishedPrint
  return .print value

/-- An expression on its own, with so much room for it. -/
def expressionStatement (room : Nat) : Parse Stmt := do
  let value ← assignment room
  let _ ← expect .semicolon .unfinishedExpression
  return .expression value

/-- A declaration or statement with so much room for its expression, blocks holding inner ones. -/
def declarationOver (room : Nat) (item : Parse (Option Stmt)) : Parse Stmt := do
  match ← accept? (· == .kwVar) with
  | some _ => variableDeclaration room
  | none =>
    match ← accept? (· == .kwPrint) with
    | some _ => printStatement room
    | none =>
      match ← accept? (· == .leftBrace) with
      | some _ => return .block (← blockBody item)
      | none => expressionStatement room

/--
A declaration, if it is free of mistakes, with room for so many levels of blocks and expressions.

Without room there is none to report the lack of it either, so the declaration
around this one has to.
-/
def declaration : Nat → Parse (Option Stmt)
  | 0 => stop .nestedTooDeeply
  | room + 1 => recovering (declarationOver room (declaration room))

variable [Host]

/-- Declarations up to the first end token. -/
def program : Parse (List Stmt) := fun tokens =>
  declarationsUntil (· == .eof) (declaration nestingLimit) tokens tokens

end LoxLang.Parse

namespace LoxLang

variable [Host]

/-- The program that a token list is, and what was found wrong with it. -/
def parseTokens (tokens : List Token) : Parsed (List Stmt) :=
  Parse.program tokens

/-- The statements of a token list; none are kept when the list has no end token. -/
def Parsed.statements (parsed : Parsed (List Stmt)) : List Stmt :=
  match parsed.result with
  | .ok statements => statements
  | .error _ => []

/-- The statements of a source text, those with mistakes left out. -/
def parseSource (source : String) : List Stmt :=
  (parseTokens (scanTokens source)).statements

/-- Everything found wrong with a source text, lexical mistakes first. -/
def sourceDiagnostics (source : String) : List Diagnostic :=
  scanDiagnostics source ++ (parseTokens (scanTokens source)).reports

end LoxLang
