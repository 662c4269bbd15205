import LoxLang.Command.Arguments
import LoxLang.Command.Outcome
import LoxLang.Json.Writer
import LoxLang.Text.Lines

/-! The command that runs scripts, stores and runs trees, and prompts for lines. -/

namespace LoxLang.Command

variable [Host]

/-- What a command line asks to be done; an empty value asks for nothing. -/
inductive Task where
  | emit (path : Path)
  | runTree (path : Path)
  | runScript (path : Path)
  | prompt
deriving DecidableEq, Repr

/-- The path that a value names, unless it is empty. -/
def given? (value : Option String) : Option Path :=
  match value with
  | some text => if text = "" then none else some (Path.ofString text)
  | none => none

/-- What the options ask to be done: storing a tree comes before running one, and
that before a script. -/
def taskOf (options : Options) : Task :=
  match given? (options.emit.bind Given.text?), given? (options.tree.bind Given.text?),
    given? options.script with
  | some path, _, _ => .emit path
  | none, some path, _ => .runTree path
  | none, none, some path => .runScript path
  | none, none, none => .prompt

/-- The state of a command: its session and the files around it. -/
structure State where
  session : Session
  disk : Disk
  /-- Where the debug text goes, if anywhere. -/
  debugFile : Option Given

namespace State

/-- Brings the debug file up to date. -/
def flush (state : State) : Except Breakdown State :=
  match state.debugFile with
  | none => .ok state
  | some .nothing => .error .unnamedDebugFile
  | some (.text name) =>
    let written := Event.debugText state.session.machine.events.reverse
    match state.disk.writeNamed name written.toUTF8 with
    | .ok disk => .ok { state with disk }
    | .error error => .error (.disk error)

/-- Ends a command, with text for both channels behind what the session told. -/
def finish (state : State) (ending : Ending) (output errors : String) : Outcome :=
  let events := state.session.machine.events.reverse
  { ending
    output := Event.output events ++ output
    errors := Event.errors events ++ errors
    disk := state.disk
    globals := state.session.globals }

/-- Ends a command with the status of its session. -/
def finishSession (state : State) : Outcome :=
  state.finish (.status state.session.exitCode) "" ""

/-- Ends a command that breaks off. -/
def breakOff (state : State) (cause : Breakdown) : Outcome :=
  state.finish (.broken cause) "" ""

/-- Ends a command that cannot find a file. -/
def missing (state : State) (path : Path) : Outcome :=
  state.finish (.status missingStatus) "" ("Error: file " ++ path.toString ++ " not found\n")

/-- Ends a command whose input nests too deeply. -/
def tooDeep (state : State) : Outcome :=
  state.finish (.status dataStatus) "" ("Error: " ++ nestingMessage ++ "\n")

/-- Goes on with the text of a file, if there is one that can be read. -/
def withText (state : State) (path : Path) (next : String → Outcome) : Outcome :=
  if state.disk.hasPath path then
    match state.disk.read path with
    | .ok bytes =>
      match Lines.decode? bytes with
      | some text => next text
      | none => state.breakOff .undecodable
    | .error error => state.breakOff (.disk error)
  else state.missing path

/-- Goes on once the debug file is up to date. -/
def flushed (state : State) (next : State → Outcome) : Outcome :=
  match state.flush with
  | .ok state => next state
  | .error cause => state.breakOff cause

/-- Ends a command after its session has run. -/
def concluded (state : State) (session : Session) (failure : Option Failure) : Outcome :=
  { state with session }.flushed fun state =>
    match failure with
    | some failure => state.breakOff (.session failure)
    | none => state.finishSession

/-- Stores the tree of a script next to it. -/
def emit (state : State) (path : Path) (source : String) : Outcome :=
  let (session, program) := state.session.parse source
  { state with session }.flushed fun state =>
    if session.exitCode ≠ 0 then state.finishSession
    else
      match (Node.ofProgram program).toJson? with
      | none => state.tooDeep
      | some data =>
        let target := path.withSuffix ".ast.json"
        match state.disk.write target data.write.toUTF8 with
        | .ok disk => { state with disk }.finish (.status 0) (target.toString ++ "\n") ""
        | .error error => state.breakOff (.disk error)

/-- Runs a stored tree. -/
def runTree (state : State) (text : String) : Outcome :=
  match loadTree text with
  | .error .nestedTooDeeply => state.tooDeep
  | .error failure => state.breakOff (.session failure)
  | .ok tree =>
    let (session, failure) := state.session.runTree tree
    state.concluded session failure

/-- Runs a script. -/
def runScript (state : State) (source : String) : Outcome :=
  let (session, failure) := state.session.run source
  state.concluded session failure

/-- Prompts for lines; the flags of the last one do not matter. -/
def prompt (state : State) (input : String) : Outcome :=
  let lines := (Lines.split (Lines.unify input.toList)).map String.ofList
  let (session, failure) := state.session.prompt lines
  state.concluded session failure

/-- Does what is asked. -/
def perform (state : State) (input : String) : Task → Outcome
  | .emit path => state.withText path (state.emit path)
  | .runTree path => state.withText path state.runTree
  | .runScript path => state.withText path state.runScript
  | .prompt => state.prompt input

end State

/-- The text of a usage error. -/
def usageText (error : UsageError) : String :=
  "Usage: lox [script]\nlox: error: " ++ error.message ++ "\n"

/-- Runs the command on its arguments and input, in a directory with the given files. -/
def run (disk : Disk) (arguments : List String) (input : String) : Outcome :=
  match Options.parse arguments with
  | .error error => { ending := .status usageStatus, errors := usageText error, disk }
  | .ok options =>
    if options.helpWanted then { ending := .status 0, output := "Usage: lox [script]\n", disk }
    else
      let session := Session.start options.verbosity []
      let debugFile := if options.verbosity = 0 then none else some options.debugFile
      -- The debug file is there, and empty, before anything else is looked for.
      State.flushed { session, disk, debugFile } fun state => state.perform input (taskOf options)

end LoxLang.Command
