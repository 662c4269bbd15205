import LoxLang.Command.Run

/-! The command line: real files and channels around the command. -/

namespace LoxLang

/-- The place that names a file for the operating system. -/
def osName (place : Location) : String :=
  "/" ++ "/".intercalate place

/-- What really stands at a place. -/
def surveyPlace (place : Location) : IO (Option Entry) := do
  let path := (← IO.currentDir) / osName place
  if ← path.isDir then return some .directory
  else if ← path.pathExists then return some (.file (← IO.FS.readBinFile path))
  else return none

/-- A tree that agrees with the real one at every place that the given paths lead through. -/
def survey (current : Location) (texts : List String) : IO Disk := do
  let mut disk := Disk.onlyCurrent current
  for text in texts do
    let path := Path.ofString text
    for place in Disk.placesOn (if path.isAnchored then [] else current) path.names do
      if let some entry ← surveyPlace place then disk := disk.put place entry
  return disk

/-- Makes the real tree agree with the changes of a command. -/
def applyChanges (changes : List (Location × Entry)) : IO Unit :=
  changes.forM fun (place, entry) =>
    match entry with
    | .directory => IO.FS.createDirAll (osName place)
    | .file contents => IO.FS.writeBinFile (osName place) contents

/-- The status of a command, after telling about a breakdown. -/
def Ending.report : Ending → IO UInt32
  | .status code => return code.toUInt32
  | .broken cause => do
    IO.eprintln cause.message
    return 1

/-- Shows what a session told, and puts its debug text into the debug file. -/
def showEvents (debugHandle : Option IO.FS.Handle) (events : List Event) : IO Unit := do
  IO.print (Event.output events)
  (← IO.getStdout).flush
  IO.eprint (Event.errors events)
  if let some handle := debugHandle then
    handle.putStr (Event.debugText events)
    handle.flush

/-- Prompts for lines until the input ends. -/
partial def promptLoop (input : IO.FS.Stream) (debugHandle : Option IO.FS.Handle)
  (session : Session) : IO UInt32 := do
  IO.print Session.promptText
  (← IO.getStdout).flush
  let chunk ← input.getLine
  if chunk.isEmpty then
    IO.println ""
    return 0
  let mut state := session
  for line in Lines.split (Lines.unify chunk.toList) do
    let (ran, failure) := state.run (String.ofList line)
    let (after, events) := ran.reset.drain
    showEvents debugHandle events
    if let some failure := failure then return ← (Ending.broken (.session failure)).report
    state := after
  promptLoop input debugHandle state

/-- Runs the command without input, on the files that its options name. -/
def runOnFiles (arguments : List String) (options : Options) : IO UInt32 := do
  let current := (Path.ofString (← IO.currentDir).toString).names
  let named :=
    [options.emit.bind Given.text?, options.tree.bind Given.text?, options.script].filterMap id
  let targets := named.map fun text => ((Path.ofString text).withSuffix ".ast.json").toString
  let before ← survey current (options.debugFile.text?.toList ++ named ++ targets)
  let outcome := Command.run before arguments ""
  applyChanges (outcome.disk.changesSince before)
  IO.print outcome.output
  (← IO.getStdout).flush
  IO.eprint outcome.errors
  outcome.ending.report

/-- Prompts, with the debug file open if debug text is wanted. -/
def runPrompt (options : Options) : IO UInt32 := do
  let session := Session.start options.verbosity []
  if options.verbosity = 0 then promptLoop (← IO.getStdin) none session
  else
    match options.debugFile with
    | .nothing => (Ending.broken .unnamedDebugFile).report
    | .text name => promptLoop (← IO.getStdin) (some (← IO.FS.Handle.mk name .write)) session

/-- Does what the arguments ask for. -/
def runCommandLine (arguments : List String) : IO UInt32 :=
  match Options.parse arguments with
  | .ok options =>
    if Command.taskOf options = .prompt ∧ options.helpWanted = false then runPrompt options
    else runOnFiles arguments options
  | .error _ => runOnFiles arguments {}

end LoxLang

/-- The command itself. -/
def main (arguments : List String) : IO UInt32 :=
  LoxLang.runCommandLine arguments
