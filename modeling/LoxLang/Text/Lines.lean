/-! Line ends: three spellings are read as one, and only that one ends a line. -/

namespace LoxLang.Lines

/-- A text in which every line end is a line feed. -/
def unify : List Char → List Char
  | [] => []
  | '\r' :: '\n' :: rest => '\n' :: unify rest
  | '\r' :: rest => '\n' :: unify rest
  | c :: rest => c :: unify rest

/-- The lines of a text without their ends; text behind the last line end is a line
if there is any. -/
def split (cs : List Char) : List (List Char) :=
  match cs with
  | [] => []
  | c :: rest =>
    if c = '\n' then [] :: split rest
    else
      match split rest with
      | [] => [[c]]
      | line :: lines =>
        -- A line end right behind this character belongs to the line that the character starts.
        (c :: line) :: lines

/-- The text that stored bytes are, line ends unified; none if they are not UTF-8. -/
def decode? (bytes : ByteArray) : Option String :=
  (String.fromUTF8? bytes).map fun text => String.ofList (unify text.toList)

end LoxLang.Lines
