import LoxLang.Json.Basic

/-! Writing JSON text, one item or field a line, two spaces for each level. -/

namespace LoxLang.Json

/-- One character of a string; only quotes, backslashes and controls are escaped. -/
def writeChar (c : Char) : List Char :=
  if c = '"' ∨ c = '\\' then ['\\', c]
  else if c = '\n' then ['\\', 'n']
  else if c = '\r' then ['\\', 'r']
  else if c = '\t' then ['\\', 't']
  else if c = '\x08' then ['\\', 'b']
  else if c = '\x0c' then ['\\', 'f']
  else if c < ' ' then '\\' :: 'u' :: Quoted.hex 4 c.toNat
  else [c]

/-- One element of a string; half of a pair is escaped too. -/
def writeGlyph : Glyph → List Char
  | .char c => writeChar c
  | .half unit => Glyph.escape unit

/-- A string between quotes. -/
def writeString (text : Text) : String :=
  String.ofList ('"' :: text.glyphs.flatMap writeGlyph ++ ['"'])

/-- A number; those that are not finite have words of their own. -/
def writeNumber (x : Float) : String :=
  if x.isNaN then "NaN"
  else if x.isInf then if Number.isNegative x then "-Infinity" else "Infinity"
  else Number.text x

/-- A line end and the indentation of a level. -/
def newline (level : Nat) : String :=
  String.ofList ('\n' :: List.replicate (2 * level) ' ')

/-- Parts of a value between brackets, each on a line of its own. -/
def enclose (opening closing : String) (level : Nat) (parts : List String) : String :=
  if parts.isEmpty then opening ++ closing
  else
    opening ++ newline (level + 1) ++ ("," ++ newline (level + 1)).intercalate parts ++
      newline level ++ closing

mutual

/-- The text of a value that stands at a level of indentation. -/
def writeAt (level : Nat) : Json → String
  | null => "null"
  | bool true => "true"
  | bool false => "false"
  | int i => toString i
  | number x => writeNumber x
  | string s => writeString s
  | garbled text => writeString (.garbled text)
  | array items => enclose "[" "]" level (writeItems (level + 1) items)
  | object fields => enclose "\x7b" "\x7d" level (writeFields (level + 1) fields)

/-- The texts of the items of an array. -/
def writeItems (level : Nat) : List Json → List String
  | [] => []
  | item :: rest => writeAt level item :: writeItems level rest

/-- The texts of the fields of an object. -/
def writeFields (level : Nat) : List (Text × Json) → List String
  | [] => []
  | (name, value) :: rest =>
    (writeString name ++ ": " ++ writeAt level value) :: writeFields level rest

end

/-- The text of a value. -/
def write (value : Json) : String :=
  writeAt 0 value

end LoxLang.Json
