import LoxLang.Disk.Path

/-! A tree of files with a current directory, and the operations that commands perform on it. -/

namespace LoxLang

/-- What stands at a place of the tree. -/
inductive Entry where
  | directory
  | file (contents : ByteArray)
deriving Inhabited

/-- Decides whether two entries are one. -/
def Entry.decEq : (a b : Entry) → Decidable (a = b)
  | .directory, .directory => isTrue rfl
  | .file a, .file b =>
    match ByteArray.instDecidableEq a b with
    | isTrue same => isTrue (by rw [same])
    | isFalse differ => isFalse (by simp [differ])
  | .directory, .file _ | .file _, .directory => isFalse (by simp)

instance : DecidableEq Entry :=
  Entry.decEq

/-- Why an operation on files fails. -/
inductive DiskError where
  | notFound
  | isDirectory
  | notDirectory
  | alreadyExists
  /-- The name has a character that no path can hold. -/
  | unnameable
deriving DecidableEq, Repr

/-- The wording of a failure on files. -/
def DiskError.message : DiskError → String
  | notFound => "no such file or directory"
  | isDirectory => "is a directory"
  | notDirectory => "not a directory"
  | alreadyExists => "file exists"
  | unnameable => "embedded null byte"

/-- A place of the tree: the names that lead to it from the root. -/
abbrev Location := List String

/-- Files and directories by their places, and the place that paths without an anchor start from. -/
structure Disk where
  current : Location := []
  entries : List (Location × Entry) := []
deriving Inhabited

/-- What a path leads to. -/
inductive Target where
  | directory
  | file (place : Location) (contents : ByteArray)
  /-- Nothing yet, in a directory that exists. -/
  | absent (place : Location)
  | failed (error : DiskError)

namespace Disk

/-- What stands at a place; the root is always there. -/
def get? (disk : Disk) (place : Location) : Option Entry :=
  if place.isEmpty then some .directory else disk.entries.lookup place

/-- Puts something at a place. -/
def put (disk : Disk) (place : Location) (entry : Entry) : Disk :=
  { disk with entries := (place, entry) :: disk.entries.filter fun (other, _) => other ≠ place }

/-- A tree that holds only the directories on the way to the current one. -/
def onlyCurrent (current : Location) : Disk :=
  { current,
    entries := (List.range current.length).map fun n => (current.take (n + 1), .directory) }

/-- The places that names lead through, one after the other, from a directory. -/
def placesOn (start : Location) : List String → List Location
  | [] => []
  | name :: rest =>
    let place := if name = ".." then start.dropLast else start ++ [name]
    place :: placesOn place rest

/-- What names lead to, one after the other, from a directory; above the root there
is only the root. -/
def follow (disk : Disk) (start : Location) : List String → Target
  | [] => .directory
  | name :: rest =>
    if name = ".." then disk.follow start.dropLast rest
    else
      let place := start ++ [name]
      match disk.get? place with
      | some .directory => disk.follow place rest
      | some (.file contents) =>
        if rest.isEmpty then .file place contents else .failed .notDirectory
      | none => if rest.isEmpty then .absent place else .failed .notFound

/-- What a path leads to. -/
def find (disk : Disk) (path : Path) : Target :=
  disk.follow (if path.isAnchored then [] else disk.current) path.names

/-- Whether a path leads to something. -/
def hasPath (disk : Disk) (path : Path) : Bool :=
  match disk.find path with
  | .directory | .file .. => true
  | .absent _ | .failed _ => false

/-- The contents of the file that a path leads to. -/
def read (disk : Disk) (path : Path) : Except DiskError ByteArray :=
  match disk.find path with
  | .file _ contents => .ok contents
  | .directory => .error .isDirectory
  | .absent _ => .error .notFound
  | .failed error => .error error

/-- Gives the file that a path leads to new contents; the file need not exist yet. -/
def write (disk : Disk) (path : Path) (contents : ByteArray) : Except DiskError Disk :=
  match disk.find path with
  | .file place _ | .absent place => .ok (disk.put place (.file contents))
  | .directory => .error .isDirectory
  | .failed error => .error error

/-- Why nothing can be written to a path that leads to a directory, if to anything. -/
def refusal (disk : Disk) (path : Path) : DiskError :=
  match disk.find path with
  | .directory => .isDirectory
  | .file .. => .notDirectory
  | .absent _ => .notFound
  | .failed error => error

/-- Writes a file named by a text, which must not be empty nor stand for a directory. -/
def writeNamed (disk : Disk) (text : String) (contents : ByteArray) : Except DiskError Disk :=
  let path := Path.ofString text
  if !Path.isNameable text then .error .unnameable
  else if text = "" then .error .notFound
  else if Path.endsUnnamed text then .error (disk.refusal path)
  -- What stands there does not matter, but the way to it does.
  else if Path.endsInSlash text then .error (disk.refusal path.parent)
  else disk.write path contents

/-- Makes one directory; one that exists is left as it is. -/
def makeDirectory (disk : Disk) (path : Path) : Except DiskError Disk :=
  match disk.find path with
  | .directory => .ok disk
  | .file .. => .error .alreadyExists
  | .absent place => .ok (disk.put place .directory)
  | .failed error => .error error

/-- Makes the directories that names lead through, one after the other, below a path. -/
def makeBelow (disk : Disk) (path : Path) : List String → Except DiskError Disk
  | [] => .ok disk
  | name :: rest => do
    let next := path.child name
    (← disk.makeDirectory next).makeBelow next rest

/-- Makes a directory and, where they are missing, those that lead to it. -/
def makeDirectories (disk : Disk) (path : Path) : Except DiskError Disk :=
  if !path.names.all Path.isNameable then .error .unnameable
  else
    match disk.find path with
    | .failed .notFound => disk.makeBelow { path with names := [] } path.names
    | _ => disk.makeDirectory path

/-- A tree with one more file, and the directories that lead to it. -/
def withFile (disk : Disk) (path : Path) (contents : ByteArray) : Except DiskError Disk := do
  let made ← disk.makeDirectories path.parent
  made.write path contents

/-- The places whose entry is new or another than before, with what stands there now. -/
def changesSince (disk before : Disk) : List (Location × Entry) :=
  disk.entries.filter fun (place, entry) => before.get? place ≠ some entry

/-- The names that lead from one place to another below it. -/
def below? : Location → Location → Option (List String)
  | [], place => some place
  | _ :: _, [] => none
  | name :: start, other :: place => if name = other then below? start place else none

/-- The files below the current directory that are new or have other contents than
before, by their paths. -/
def filesSince (disk before : Disk) : List (String × ByteArray) :=
  (disk.changesSince before).filterMap fun (place, entry) =>
    match entry, below? disk.current place with
    | .file contents, some names => some ("/".intercalate names, contents)
    | _, _ => none

end Disk

end LoxLang
