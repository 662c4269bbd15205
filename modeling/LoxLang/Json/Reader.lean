import LoxLang.Json.Basic
import LoxLang.Host
import LoxLang.Source.Segment

/-! Reading JSON text: strict, apart from the three words for numbers that are not finite. -/

namespace LoxLang.Json

/-- Why a text is not read. -/
inductive ReadError where
  | malformed
  | nestedTooDeeply
  /-- A whole number has more digits than are read. -/
  | tooManyDigits (count : Nat)
deriving DecidableEq, Repr

/-- What a reader makes of the front of a text, and the text behind it. -/
abbrev Reading (α : Type) := Except ReadError (α × List Char)

/-- The four characters that may stand between tokens. -/
def isBlank (c : Char) : Bool :=
  c == ' ' || c == '\t' || c == '\n' || c == '\r'

/-- A text without the blanks at its front. -/
def skipBlanks (cs : List Char) : List Char :=
  cs.dropWhile isBlank

/-- The value of a hexadecimal digit. -/
def hexValue? (c : Char) : Option Nat :=
  if '0' ≤ c && c ≤ '9' then some (c.toNat - '0'.toNat)
  else if 'a' ≤ c && c ≤ 'f' then some (c.toNat - 'a'.toNat + 10)
  else if 'A' ≤ c && c ≤ 'F' then some (c.toNat - 'A'.toNat + 10)
  else none

/-- The character that a backslash and a letter stand for. -/
def escape? : Char → Option Char
  | '"' => some '"'
  | '\\' => some '\\'
  | '/' => some '/'
  | 'b' => some '\x08'
  | 'f' => some '\x0c'
  | 'n' => some '\n'
  | 'r' => some '\r'
  | 't' => some '\t'
  | _ => none

/-- The code units of a string up to its closing quote, and the text behind it. -/
def stringUnits : List Char → Option (List Nat × List Char)
  | [] => none
  | '"' :: rest => some ([], rest)
  | '\\' :: 'u' :: a :: b :: c :: d :: rest => do
    let value :=
      ((← hexValue? a) * 16 + (← hexValue? b)) * 256 + (← hexValue? c) * 16 + (← hexValue? d)
    let (units, after) ← stringUnits rest
    return (value :: units, after)
  | '\\' :: c :: rest => do
    let escaped ← escape? c
    let (units, after) ← stringUnits rest
    return (escaped.toNat :: units, after)
  | c :: rest => do
    if c < ' ' then none
    else
      let (units, after) ← stringUnits rest
      return (c.toNat :: units, after)

/-- The first unit of a pair that stands for one character. -/
def isHighSurrogate (unit : Nat) : Bool :=
  0xd800 ≤ unit && unit < 0xdc00

/-- The second unit of a pair that stands for one character. -/
def isLowSurrogate (unit : Nat) : Bool :=
  0xdc00 ≤ unit && unit < 0xe000

/-- The elements that code units stand for, pairs joined; half of a pair stands for itself. -/
def joinUnits : List Nat → List Glyph
  | [] => []
  | high :: low :: rest =>
    if isHighSurrogate high && isLowSurrogate low then
      .char (Char.ofNat (0x10000 + (high - 0xd800) * 0x400 + (low - 0xdc00))) :: joinUnits rest
    else .ofCode high :: joinUnits (low :: rest)
  | [unit] => [.ofCode unit]

/-- The string behind an opening quote. -/
def readString (cs : List Char) : Reading Text :=
  match stringUnits cs with
  | some (units, rest) => .ok (.ofGlyphs (joinUnits units), rest)
  | none => .error .malformed

/-- The digits at the front of a text, and the text behind them. -/
def spanDigits (cs : List Char) : List Char × List Char :=
  (cs.takeWhile isDigit, cs.dropWhile isDigit)

/-- The digits of a fraction, if a point and at least one digit stand at the front. -/
def readFraction (cs : List Char) : Option (List Char × List Char) :=
  match cs with
  | '.' :: rest =>
    match spanDigits rest with
    | ([], _) => none
    | found => some found
  | _ => none

/-- The digits of an exponent, negative when the sign says so. -/
def readExponent (cs : List Char) : Option (Int × List Char) :=
  match cs with
  | e :: rest =>
    if e = 'e' ∨ e = 'E' then
      let (negative, unsigned) : Bool × List Char :=
        match rest with
        | '-' :: digits => (true, digits)
        | '+' :: digits => (false, digits)
        | digits => (false, digits)
      match spanDigits unsigned with
      | ([], _) => none
      | (digits, after) =>
        let value : Int := Number.ofDigits digits
        some (if negative then -value else value, after)
    else none
  | [] => none

/-- The whole part of a number: a zero, or digits that do not start with one. -/
def readWhole (cs : List Char) : Option (List Char × List Char) :=
  match cs with
  | '0' :: rest => some (['0'], rest)
  | _ =>
    match spanDigits cs with
    | ([], _) => none
    | found => some found

/-- How many digits a whole number may have. -/
def digitLimit : Nat := 4300

/-- A number without its sign: whole unless it has a fraction or an exponent. -/
def readUnsigned (negative : Bool) (cs : List Char) : Reading Json :=
  match readWhole cs with
  | none => .error .malformed
  | some (whole, rest) =>
    let (fraction, afterFraction) := (readFraction rest).getD ([], rest)
    let (exponent, after) :=
      match readExponent afterFraction with
      | some (exponent, after) => (some exponent, after)
      | none => (none, afterFraction)
    if fraction = [] ∧ exponent = none then
      if digitLimit < whole.length then .error (.tooManyDigits whole.length)
      else
        let value : Int := Number.ofDigits whole
        .ok (.int (if negative then -value else value), after)
    else
      let value := Number.ofParts whole fraction (exponent.getD 0)
      .ok (.number (if negative then -value else value), after)

/-- The text behind a word, if the word stands at the front. -/
def afterWord? : List Char → List Char → Option (List Char)
  | [], cs => some cs
  | _ :: _, [] => none
  | w :: word, c :: cs => if w = c then afterWord? word cs else none

/-- The words that are values, and the values they are. -/
def constants : List (List Char × Json) :=
  [("null".toList, .null), ("true".toList, .bool true), ("false".toList, .bool false),
    ("NaN".toList, .number Number.undefinedResult), ("Infinity".toList, .number (1.0 / 0.0)),
    ("-Infinity".toList, .number (-(1.0 / 0.0)))]

/-- A value that holds no others. -/
def readScalar (cs : List Char) : Reading Json :=
  match constants.findSome? fun (word, value) => (afterWord? word cs).map (value, ·) with
  | some found => .ok found
  | none =>
    match cs with
    | '"' :: rest => (readString rest).map fun (text, after) => (ofText text, after)
    | '-' :: rest => readUnsigned true rest
    | _ => readUnsigned false cs

/--
The items of an array from its first one to the closing bracket.

Every round uses at least one character, so the text itself, taken as a clock, does
not run out before it ends.
-/
def readItems (readItem : List Char → Reading Json) :
    List Char → List Char → Except ReadError (List Json × List Char)
  | [], _ => .error .malformed
  | _ :: clock, cs => do
    let (item, afterItem) ← readItem cs
    match skipBlanks afterItem with
    | ']' :: rest => return ([item], rest)
    | ',' :: rest =>
      let (items, after) ← readItems readItem clock (skipBlanks rest)
      return (item :: items, after)
    | _ => .error .malformed

/--
The fields of an object from its first one to the closing brace, added to those read so far.

Every round uses at least one character, so the text itself, taken as a clock, does
not run out before it ends.
-/
def readFields (readItem : List Char → Reading Json) :
    List Char → List (Text × Json) → List Char → Except ReadError (List (Text × Json) × List Char)
  | [], _, _ => .error .malformed
  | _ :: clock, fields, '"' :: cs => do
    let (name, afterName) ← readString cs
    match skipBlanks afterName with
    | ':' :: rest =>
      let (value, afterValue) ← readItem (skipBlanks rest)
      let fields := setField name value fields
      match skipBlanks afterValue with
      | '\x7d' :: rest => return (fields, rest)
      | ',' :: rest => readFields readItem clock fields (skipBlanks rest)
      | _ => .error .malformed
    | _ => .error .malformed
  | _, _, _ => .error .malformed

/-- The value at the front of a text, with room for so many levels of nesting. -/
def readValue : Nat → List Char → Reading Json
  | 0, '[' :: _ => .error .nestedTooDeeply
  | 0, '\x7b' :: _ => .error .nestedTooDeeply
  | room + 1, '[' :: rest =>
    match skipBlanks rest with
    | ']' :: after => .ok (.array [], after)
    | cs => (readItems (readValue room) cs cs).map fun (items, after) => (.array items, after)
  | room + 1, '\x7b' :: rest =>
    match skipBlanks rest with
    | '\x7d' :: after => .ok (.object [], after)
    | cs =>
      (readFields (readValue room) cs [] cs).map fun (fields, after) => (.object fields, after)
  | _, cs => readScalar cs

/-- The value that a whole text is. -/
def read [Host] (text : String) : Except ReadError Json := do
  let (value, rest) ← readValue nestingLimit (skipBlanks text.toList)
  if skipBlanks rest = [] then return value else .error .malformed

end LoxLang.Json
