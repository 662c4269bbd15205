/-! Paths of files, reduced to the names they consist of. -/

namespace LoxLang

/-- A path: what anchors it at a root, if anything, and the names below. -/
structure Path where
  anchor : String := ""
  names : List String := []
deriving DecidableEq, Repr, Inhabited

namespace Path

/-- The pieces of a text between slashes. -/
def pieces (text : String) : List String :=
  (text.toList.splitOn '/').map String.ofList

/-- What anchors a path: nothing, the root, or the other root that exactly two slashes stand for. -/
def anchorOf (text : String) : String :=
  match text.toList with
  | '/' :: '/' :: '/' :: _ => "/"
  | '/' :: '/' :: _ => "//"
  | '/' :: _ => "/"
  | _ => ""

/-- The path that a text is: empty names and single dots say nothing. -/
def ofString (text : String) : Path :=
  { anchor := anchorOf text, names := (pieces text).filter fun name => name ≠ "" ∧ name ≠ "." }

/-- The text of a path; one without names is the current directory or the root. -/
def toString (path : Path) : String :=
  if path.names.isEmpty ∧ path.anchor = "" then "."
  else path.anchor ++ "/".intercalate path.names

/-- Whether a path starts from a root. -/
def isAnchored (path : Path) : Bool :=
  path.anchor ≠ ""

/-- A path below another. -/
def child (path : Path) (name : String) : Path :=
  { path with names := path.names ++ [name] }

/-- A path next to another, its last name followed by a suffix. -/
def withSuffix (path : Path) (suffix : String) : Path :=
  match path.names.getLast? with
  | some last => { path with names := path.names.dropLast ++ [last ++ suffix] }
  | none => path

/-- A path without its last name. -/
def parent (path : Path) : Path :=
  { path with names := path.names.dropLast }

/-- Whether a text gives the last step of a path no name, apart from slashes: one
dot, two dots, or nothing. -/
def endsUnnamed (text : String) : Bool :=
  match ((pieces text).filter (· ≠ "")).getLast? with
  | some last => last == "." || last == ".."
  | none => true

/-- Whether a slash ends a text. -/
def endsInSlash (text : String) : Bool :=
  (pieces text).getLast? == some ""

/-- The character that no path can hold. -/
def forbidden : Char := '\x00'

/-- Whether a text can name anything at all. -/
def isNameable (text : String) : Bool :=
  !text.contains forbidden

end Path

end LoxLang
