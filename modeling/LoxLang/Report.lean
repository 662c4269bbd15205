import LoxLang.Value

/-! Static diagnostics and notices: their causes, their texts and the flags they raise. -/

namespace LoxLang

/-- What is wrong with a source text. -/
inductive Fault where
  | unexpectedCharacter
  | unterminatedString
  | unterminatedComment
  | missingVariableName
  | unfinishedDeclaration
  | unfinishedPrint
  | unfinishedExpression
  | unclosedBlock
  | unclosedGrouping
  | missingExpression
  | invalidTarget
  | nestedTooDeeply
deriving DecidableEq, Repr

/-- The wording of the one limit that parsing, evaluating, writing and loading share. -/
def nestingMessage : String := "Expression nested too deeply."

/-- The wording of a static fault. -/
def Fault.message : Fault → String
  | unexpectedCharacter => "Unexpected character."
  | unterminatedString => "Unterminated string."
  | unterminatedComment => "Unterminated comment."
  | missingVariableName => "Expect variable name."
  | unfinishedDeclaration => "Expect ';' after variable declaration."
  | unfinishedPrint => "Expect ';' after value."
  | unfinishedExpression => "Expect ';' after expression."
  | unclosedBlock => "Expect '\x7d' after block."
  | unclosedGrouping => "Expect ')' after expression."
  | missingExpression => "Expect expression."
  | invalidTarget => "Invalid assignment target."
  | nestedTooDeeply => nestingMessage

/-- Where on its line a fault was found. -/
inductive Place where
  | unplaced
  | atEnd
  | atLexeme (lexeme : String)
deriving DecidableEq, Repr

/-- The place that a token marks. -/
def Place.ofToken (t : Token) : Place :=
  if t.kind = .eof then .atEnd else .atLexeme t.lexeme

/-- The place as it is written after the word that opens a diagnostic. -/
def Place.text : Place → String
  | unplaced => ""
  | atEnd => " at end"
  | atLexeme lexeme => " at '" ++ lexeme ++ "'"

/-- A fault of the source text and where it was found. -/
structure Diagnostic where
  line : Int
  place : Place
  fault : Fault
deriving DecidableEq, Repr

/-- The diagnostic of a fault found at a token. -/
def Diagnostic.atToken (t : Token) (fault : Fault) : Diagnostic :=
  { line := t.line, place := .ofToken t, fault }

/-- One report on the error channel. -/
inductive Notice where
  | static (line : Int) (place message : String)
  | runtime (line : Json) (message : String)
deriving DecidableEq

/-- The lines a notice is written as. -/
def Notice.text : Notice → String
  | static line place message =>
    "[line " ++ toString line ++ "] Error" ++ place ++ ": " ++ message ++ "\n"
  | runtime line message => message ++ "\n[line " ++ line.shown ++ "]\n"

/-- The notice of a diagnostic. -/
def Diagnostic.notice (d : Diagnostic) : Notice :=
  .static d.line d.place.text d.fault.message

/-- The texts of notices, one after the other. -/
def Notice.texts (notices : List Notice) : String :=
  String.join (notices.map Notice.text)

/-- Which kinds of error have been reported since the flags were last cleared. -/
structure Flags where
  hadError : Bool := false
  hadRuntimeError : Bool := false
deriving DecidableEq, Repr

/-- A notice raises the flag of its kind. -/
def Flags.note (flags : Flags) : Notice → Flags
  | .static .. => { flags with hadError := true }
  | .runtime .. => { flags with hadRuntimeError := true }

/-- Notices raise their flags in turn. -/
def Flags.noteAll (flags : Flags) (notices : List Notice) : Flags :=
  notices.foldl Flags.note flags

/-- The status a program ends with: data errors come before software errors. -/
def Flags.exitCode (flags : Flags) : Nat :=
  if flags.hadError then 65 else if flags.hadRuntimeError then 70 else 0

end LoxLang
