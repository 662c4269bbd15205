import LoxLang.Execution
import LoxLang.Grammar.Program
import LoxLang.Json.Reader
import LoxLang.Tree.Stored
import LoxLang.Tree.Printer

/-!
Sessions: programs that run one after another on the same variables, and what they tell the outside.
-/

namespace LoxLang

variable [Host]

/-- Why a step of a session gives up without a report of its own. -/
inductive Failure where
  | unsupported (request : Unsupported)
  | nestedTooDeeply
  | malformedData
  /-- A whole number in the data has more digits than are read. -/
  | tooManyDigits (count : Nat)
  | unloadable (cause : LoadError)
  /-- A channel refuses a text because of the halves in it. -/
  | unwritable (channel : Channel) (blot : Blot)

/-- The wording of a failure. -/
def Failure.message : Failure → String
  | unsupported request => request.message
  | nestedTooDeeply => nestingMessage
  | malformedData => "malformed data"
  | tooManyDigits count =>
    "Exceeds the limit (" ++ toString Json.digitLimit ++
      " digits) for integer string conversion: value has " ++
      toString count ++ " digits; use sys.set_int_max_str_digits() to increase the limit"
  | unloadable cause => cause.message
  | unwritable _ blot => blot.message

/-- The state between two steps. -/
structure Session where
  machine : Machine := {}
  flags : Flags := {}

namespace Session

/-- A new session that tells so much about itself and starts from the given variables. -/
def start (debugLevel : Nat) (globals : Bindings) : Session :=
  { machine := { forest := .root globals, debugLevel } }

/-- The variables of the outermost scope. -/
def globals (session : Session) : Bindings :=
  session.machine.forest.bindingsOf globalScope

/-- How many scopes stand around the current one. -/
def depth (session : Session) : Nat :=
  session.machine.forest.depth session.machine.current

/-- Adds a debug line if the session tells that much. -/
def debug (session : Session) (level : Nat) (message : String) : Session :=
  { session with machine := session.machine.debug level message }

/-- Writes to the output channel. -/
def print (session : Session) (text : String) : Session :=
  { session with machine := session.machine.emit (.printed text) }

/-- Reports on the error channel, and raises the flag of the report. -/
def notify (session : Session) (notice : Notice) : Session :=
  { machine := session.machine.emit (.noticed notice), flags := session.flags.note notice }

/-- Reports diagnostics in turn. -/
def diagnose (session : Session) (diagnostics : List Diagnostic) : Session :=
  diagnostics.foldl (fun session diagnostic => session.notify diagnostic.notice) session

/-- Tells about the tokens of a source text. -/
def describeTokens (session : Session) (tokens : List Token) : Session :=
  let counted := session.debug 2 ("scanned " ++ toString tokens.length ++ " tokens")
  if 3 ≤ session.machine.debugLevel then
    tokens.foldl (fun session token => session.debug 3 ("  " ++ token.text)) counted
  else counted

/-- Tells about a program, unless an error has been reported. -/
def describeProgram (session : Session) (program : List Stmt) : Session :=
  if 2 ≤ session.machine.debugLevel ∧ session.flags.hadError = false then
    session.debug 2 (Node.renderProgram program)
  else session

/-- Reads a source text as a program, and reports what is wrong with it. -/
def parse (session : Session) (source : String) : Session × List Stmt :=
  let tokens := scanTokens source
  let scanned := (session.diagnose (scanDiagnostics source)).describeTokens tokens
  let parsed := parseTokens tokens
  ((scanned.diagnose parsed.reports).describeProgram parsed.statements, parsed.statements)

/-- Reports a runtime error, unless the line that is told of it before is refused. -/
def blame (session : Session) (error : RuntimeError) : Session × Option Failure :=
  match error.debugLine with
  | .plain message => ((session.debug 1 message).notify error.notice, none)
  | .garbled text =>
    if 1 ≤ session.machine.debugLevel then
      (session, some (.unwritable .debug (Glyph.blot text.glyphs)))
    else (session.notify error.notice, none)

/-- Runs statements in turn; a runtime error ends the run and is reported. -/
def interpret (session : Session) (program : List Stmt) : Session × Option Failure :=
  let (result, machine) := Exec.executeAll program session.machine
  let ran := { session with machine }
  match result with
  | .ok () => (ran, none)
  | .error (.failed error) => ran.blame error
  | .error (.unsupported request) => (ran, some (.unsupported request))
  | .error .nestedTooDeeply => (ran, some .nestedTooDeeply)
  | .error (.unwritable channel blot) => (ran, some (.unwritable channel blot))

/-- Reads a source text and runs it, unless an error has been reported. -/
def run (session : Session) (source : String) : Session × Option Failure :=
  let (parsed, program) := session.parse source
  if parsed.flags.hadError then (parsed, none) else parsed.interpret program

/-- The status the session would end with. -/
def exitCode (session : Session) : Nat :=
  session.flags.exitCode

/-- Clears the flags. -/
def reset (session : Session) : Session :=
  { session with flags := {} }

/-- Stops telling about the session; the flags and variables stay. -/
def close (session : Session) : Session :=
  { session with machine := { session.machine with debugLevel := 0 } }

/-- What happened since the last time, in order. -/
def drain (session : Session) : Session × List Event :=
  ({ session with machine := { session.machine with events := [] } },
    session.machine.events.reverse)

end Session

/-- The stored tree that a JSON text describes. -/
def loadTree (text : String) : Except Failure Node :=
  match Json.read text with
  | .error .malformed => .error .malformedData
  | .error .nestedTooDeeply => .error .nestedTooDeeply
  | .error (.tooManyDigits count) => .error (.tooManyDigits count)
  | .ok data =>
    match Node.ofJson data with
    | .ok tree => .ok tree
    | .error cause => .error (.unloadable cause)

/-- The program that a stored tree is. -/
def Node.program (tree : Node) : Except Failure (List Stmt) :=
  match tree.toProgram? with
  | some program => .ok program
  | none => .error (.unloadable (.notIterable tree.typeName))

namespace Session

/-- Runs the program that a stored tree is, whatever has been reported before. -/
def runTree (session : Session) (tree : Node) : Session × Option Failure :=
  match tree.program with
  | .ok program => session.interpret program
  | .error failure => (session, some failure)

/-- Runs the program that a JSON text describes. -/
def runTreeText (session : Session) (text : String) : Session × Option Failure :=
  match loadTree text with
  | .ok tree => session.runTree tree
  | .error failure => (session, some failure)

/-- What can be asked of a session. -/
inductive Step where
  | run (source : String)
  | parse (source : String)
  | runTree (text : String)
  | reset
  | close

/-- What a step gives back besides what it tells the outside. -/
structure Answer where
  printed : Option String := none
  code : Option Nat := none
  failure : Option Failure := none

/-- Takes one step. -/
def step (session : Session) : Step → Session × Answer
  | .run source =>
    let (ran, failure) := session.run source
    (ran, { failure })
  | .parse source =>
    let (parsed, program) := session.parse source
    (parsed, { printed := some (Node.renderProgram program) })
  | .runTree text =>
    let (ran, failure) := session.runTreeText text
    (ran, { failure, code := if failure.isNone then some ran.exitCode else none })
  | .reset => (session.reset, {})
  | .close => (session.close, {})

/-- What a prompt shows before each line. -/
def promptText : String := "> "

/-- Runs one line of input; an error on it does not affect the next. -/
def runLine (session : Session) (line : String) : Session × Option Failure :=
  let (ran, failure) := (session.print promptText).run line
  match failure with
  | some _ => (ran, failure)
  | none => (ran.reset, none)

/-- Runs lines of input until one of them fails, and ends the line of the prompt
when there are no more. -/
def prompt (session : Session) : List String → Session × Option Failure
  | [] => ((session.print promptText).print "\n", none)
  | line :: rest =>
    match session.runLine line with
    | (ran, some failure) => (ran, some failure)
    | (ran, none) => ran.prompt rest

end Session

namespace Event

/-- The text on the output channel. -/
def output (events : List Event) : String :=
  String.join (events.filterMap fun | .printed text => some text | _ => none)

/-- The text on the error channel. -/
def errors (events : List Event) : String :=
  String.join (events.filterMap fun | .noticed notice => some notice.text | _ => none)

/-- The text on the debug channel. -/
def debugText (events : List Event) : String :=
  String.join (events.filterMap fun | .debugged _ message => some (message ++ "\n") | _ => none)

end Event

end LoxLang
