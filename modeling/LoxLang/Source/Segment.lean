import LoxLang.Token.Kind

/-! Source text cut into segments: lexemes, comments, blanks and the characters that fit nowhere. -/

namespace LoxLang

/-- A decimal digit of the ASCII range. -/
def isDigit (c : Char) : Bool :=
  '0' ≤ c && c ≤ '9'

/-- A letter of the ASCII range, or an underscore. -/
def isAlpha (c : Char) : Bool :=
  ('a' ≤ c && c ≤ 'z') || ('A' ≤ c && c ≤ 'Z') || c == '_'

/-- A character that can continue a word. -/
def isAlphanumeric (c : Char) : Bool :=
  isAlpha c || isDigit c

/-- What a segment of the source is. -/
inductive SegmentClass where
  | blank
  | lineComment
  | blockComment
  | openComment
  | text
  | openText
  | number
  | word
  | symbol (kind : Kind)
  | stray
deriving DecidableEq, Repr

/-- A run of characters that belong together. -/
structure Segment where
  cls : SegmentClass
  chars : List Char
deriving DecidableEq, Repr

/-- The kind of a character that is a symbol whatever follows it. -/
def singleSymbol? : Char → Option Kind
  | '(' => some .leftParen
  | ')' => some .rightParen
  | '\x7b' => some .leftBrace
  | '\x7d' => some .rightBrace
  | ',' => some .comma
  | '.' => some .dot
  | '-' => some .minus
  | '+' => some .plus
  | ';' => some .semicolon
  | '*' => some .star
  | _ => none

/-- The kinds of a character that an equals sign extends: with the sign and without it. -/
def extensibleSymbol? : Char → Option (Kind × Kind)
  | '!' => some (.bangEqual, .bang)
  | '=' => some (.equalEqual, .equal)
  | '<' => some (.lessEqual, .less)
  | '>' => some (.greaterEqual, .greater)
  | _ => none

/-- How many characters the longest run of a class at the front of a text has. -/
def runLength (accepts : Char → Bool) (cs : List Char) : Nat :=
  (cs.takeWhile accepts).length

/-- How many characters stand before the first star and slash, if they occur together. -/
def commentLength? : List Char → Option Nat
  | [] => none
  | '*' :: '/' :: _ => some 0
  | _ :: rest => (commentLength? rest).map (· + 1)

/-- How many characters continue a number after its first digit; a fraction needs a
digit behind the point. -/
def numberTail (cs : List Char) : Nat :=
  let whole := runLength isDigit cs
  match cs.drop whole with
  | '.' :: rest =>
    let fraction := runLength isDigit rest
    if fraction = 0 then whole else whole + 1 + fraction
  | _ => whole

/-- The class of the segment that a character opens, and how many of the characters
after it belong to it. -/
def segmentHead (c : Char) (cs : List Char) : SegmentClass × Nat :=
  match singleSymbol? c, extensibleSymbol? c with
  | some kind, _ => (.symbol kind, 0)
  | none, some (extended, alone) => if cs.head? = some '=' then (.symbol extended, 1)
    else (.symbol alone, 0)
  | none, none =>
    if c = '/' then
      match cs with
      | '/' :: rest => (.lineComment, 1 + runLength (· != '\n') rest)
      | '*' :: rest =>
        match commentLength? rest with
        | some inner => (.blockComment, 1 + inner + 2)
        | none => (.openComment, cs.length)
      | _ => (.symbol .slash, 0)
    else if c = ' ' ∨ c = '\r' ∨ c = '\t' ∨ c = '\n' then (.blank, 0)
    else if c = '"' then
      let inner := runLength (· != '"') cs
      if (cs.drop inner).isEmpty then (.openText, inner) else (.text, inner + 1)
    else if isDigit c then (.number, numberTail cs)
    else if isAlpha c then (.word, runLength isAlphanumeric cs)
    else (.stray, 0)

/-- The segments of a source text, in order. -/
def segments : List Char → List Segment
  | [] => []
  | c :: cs =>
    let head := segmentHead c cs
    { cls := head.1, chars := c :: cs.take head.2 } :: segments (cs.drop head.2)
termination_by cs => cs.length
decreasing_by
  -- The first character is always used up.
  simp only [List.length_drop, List.length_cons]
  omega

/-- Nothing of a source text is lost or moved by cutting it. -/
theorem flatMap_chars_segments (cs : List Char) : (segments cs).flatMap Segment.chars = cs := by
  fun_induction segments cs with
  | case1 => rfl
  | case2 c cs head ih => simp [ih, List.take_append_drop]

/-- No segment is empty. -/
theorem chars_ne_nil_of_mem_segments {cs : List Char} {s : Segment} (mem : s ∈ segments cs) :
    s.chars ≠ [] := by
  fun_induction segments cs with
  | case1 => simp at mem
  | case2 c cs head ih =>
    rcases List.mem_cons.mp mem with rfl | later
    · simp
    · exact ih later

end LoxLang
