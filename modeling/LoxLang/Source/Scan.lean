import LoxLang.Report
import LoxLang.Source.Segment

/-! Tokens and lexical diagnostics of a source text, read off its segments. -/

namespace LoxLang

/-- How many line ends are counted in a segment: those of blanks, strings and block comments. -/
def Segment.lineEnds (s : Segment) : Nat :=
  match s.cls with
  | .blank | .text | .openText | .blockComment | .openComment => s.chars.count '\n'
  | .symbol _ | .number | .word | .lineComment | .stray => 0

/-- The characters of a segment as a string. -/
def Segment.lexeme (s : Segment) : String :=
  String.ofList s.chars

/-- The number that a numeric segment denotes. -/
def numberOf (cs : List Char) : Float :=
  Number.ofParts (cs.takeWhile isDigit) ((cs.dropWhile isDigit).drop 1) 0

/-- The token that a segment is, given the line it ends on. -/
def Segment.token? (s : Segment) (line : Nat) : Option Token :=
  match s.cls with
  | .symbol kind => some { kind, lexeme := s.lexeme, line }
  | .text =>
    some
      { kind := .string, lexeme := s.lexeme, line
        literal := .string (String.ofList (s.chars.drop 1).dropLast) }
  | .number =>
    some
      { kind := .number, lexeme := s.lexeme, line
        literal := .number (.ofFloat (numberOf s.chars)) }
  | .word => some { kind := .ofWord s.lexeme, lexeme := s.lexeme, line }
  | .blank | .lineComment | .blockComment | .openComment | .openText | .stray => none

/-- The fault that a segment is, if it is one. -/
def Segment.fault? (s : Segment) : Option Fault :=
  match s.cls with
  | .stray => some .unexpectedCharacter
  | .openText => some .unterminatedString
  | .openComment => some .unterminatedComment
  | .blank | .lineComment | .blockComment | .text | .number | .word | .symbol _ => none

/-- The token that closes every token list. -/
def endToken (line : Nat) : Token :=
  { kind := .eof, lexeme := "", line }

/-- The tokens of segments that start on a given line. -/
def tokensFrom (line : Nat) : List Segment → List Token
  | [] => [endToken line]
  | s :: rest =>
    -- The line of a token is the one it ends on.
    let after := line + s.lineEnds
    match s.token? after with
    | some token => token :: tokensFrom after rest
    | none => tokensFrom after rest

/-- The diagnostics of segments that start on a given line. -/
def diagnosticsFrom (line : Nat) : List Segment → List Diagnostic
  | [] => []
  | s :: rest =>
    let after := line + s.lineEnds
    match s.fault? with
    | some fault => { line := after, place := .unplaced, fault } :: diagnosticsFrom after rest
    | none => diagnosticsFrom after rest

/-- The tokens of a source text, closed by an end token. -/
def scanTokens (source : String) : List Token :=
  tokensFrom 1 (segments source.toList)

/-- The lexical diagnostics of a source text. -/
def scanDiagnostics (source : String) : List Diagnostic :=
  diagnosticsFrom 1 (segments source.toList)

end LoxLang
