import LoxLang.Text.Digit
import LoxLang.Text.Quoted

/-! The arguments of a command line: options, which may be shortened or joined, and one script. -/

namespace LoxLang

/-- The options there are. -/
inductive Switch where
  | help
  | verbose
  | debugFile
  | emitTree
  | runTree
deriving DecidableEq, Repr

/-- The spellings of the options, in the order in which they are tried. -/
def Switch.spellings : List (String × Switch) :=
  [("-h", .help), ("--help", .help), ("-v", .verbose), ("--debug-file", .debugFile),
    ("--emit-ast", .emitTree),
    ("--ast", .runTree)]

/-- The name of an option in a message. -/
def Switch.name : Switch → String
  | help => "-h/--help"
  | verbose => "-v"
  | debugFile => "--debug-file"
  | emitTree => "--emit-ast"
  | runTree => "--ast"

/-- Whether an option needs a value. -/
def Switch.takesValue : Switch → Bool
  | help | verbose => false
  | debugFile | emitTree | runTree => true

/-- What is wrong with the arguments. -/
inductive UsageError where
  | ambiguous (written : String) (candidates : List String)
  | missingValue (switch : Switch)
  | ignoredValue (switch : Switch) (value : String)
  | conflict (later earlier : Switch)
  | unrecognized (arguments : List String)
deriving DecidableEq, Repr

/-- The wording of a usage error. -/
def UsageError.message : UsageError → String
  | ambiguous written candidates =>
    "ambiguous option: " ++ written ++ " could match " ++ ", ".intercalate candidates
  | missingValue switch => "argument " ++ switch.name ++ ": expected one argument"
  | ignoredValue switch value =>
    "argument " ++ switch.name ++ ": ignored explicit argument " ++ Quoted.encode value
  | conflict later earlier =>
    "argument " ++ later.name ++ ": not allowed with argument " ++ earlier.name
  | unrecognized arguments => "unrecognized arguments: " ++ " ".intercalate arguments

/-- One argument as it was understood. -/
inductive Argument where
  | plain (text : String)
  /-- Two dashes, behind which nothing is an option. -/
  | separator
  | option (switch : Switch) (value : Option String)
  | unknownOption (text : String)
deriving DecidableEq, Repr

namespace Argument

/-- The part of a text before an equals sign, and the part behind it. -/
def splitValue (text : String) : String × Option String :=
  let cs := text.toList
  match cs.dropWhile (· != '=') with
  | [] => (text, none)
  | _ :: value => (String.ofList (cs.takeWhile (· != '=')), some (String.ofList value))

/-- A text without the end of a line behind it. -/
def dropLineEnd (cs : List Char) : List Char :=
  if cs.getLast? = some '\n' then cs.dropLast else cs

/-- Whether a text is a negative number without an exponent, its digits from any
scripts; it may end a line. -/
def isNegativeNumber (text : String) : Bool :=
  match text.toList with
  | '-' :: rest =>
    let unsigned := dropLineEnd rest
    match unsigned.dropWhile Digit.isDecimal with
    | [] => !unsigned.isEmpty
    | '.' :: digits => !digits.isEmpty && digits.all Digit.isDecimal
    | _ => false
  | _ => false

/-- The options that a text can be short for, each with its spelling and the value joined to it. -/
def candidates (text : String) : List (String × Switch × Option String) :=
  if text.startsWith "--" then
    let (short, value) := splitValue text
    (Switch.spellings.filter fun (spelling, _) => spelling.startsWith short).map
      fun (spelling, switch) => (spelling, switch, value)
  else
    let short := String.ofList (text.toList.take 2)
    (Switch.spellings.filter fun (spelling, _) => spelling = short).map
      fun (spelling, switch) => (spelling, switch, some (String.ofList (text.toList.drop 2)))

/-- What one argument in front of a separator is. -/
def classify (text : String) : Except UsageError Argument :=
  if !text.startsWith "-" || text = "-" then .ok (.plain text)
  else
    match Switch.spellings.lookup text with
    | some switch => .ok (.option switch none)
    | none =>
      let (spelling, value) := splitValue text
      match if value.isSome then Switch.spellings.lookup spelling else none with
      | some switch => .ok (.option switch value)
      | none =>
        match candidates text with
        | [(_, switch, value)] => .ok (.option switch value)
        | [] =>
          if isNegativeNumber text || text.contains ' ' then .ok (.plain text)
          else .ok (.unknownOption text)
        | several => .error (.ambiguous text (several.map (·.1)))

/-- What the arguments are; behind the first separator all are plain. -/
def classifyAll : List String → Except UsageError (List Argument)
  | [] => .ok []
  | text :: rest =>
    if text = "--" then .ok (.separator :: rest.map .plain)
    else do return (← classify text) :: (← classifyAll rest)

end Argument

/-- The value that an option was given. -/
inductive Given where
  | text (value : String)
  /-- Two dashes were joined to the option, and they are no value. -/
  | nothing
deriving DecidableEq, Repr

/-- The value that is joined to an option. -/
def Given.ofString (value : String) : Given :=
  if value = "--" then nothing else text value

/-- The text of a value. -/
def Given.text? : Given → Option String
  | text value => some value
  | nothing => none

/-- What a command line asks for. -/
structure Options where
  verbosity : Nat := 0
  debugFile : Given := .text "debug.txt"
  emit : Option Given := none
  tree : Option Given := none
  script : Option String := none
  helpWanted : Bool := false
deriving DecidableEq, Repr

namespace Options

/-- Counts one request for more debug text, or notes the wish for help. -/
def flag (options : Options) : Switch → Options
  | .verbose => { options with verbosity := options.verbosity + 1 }
  | .help => { options with helpWanted := true }
  | .debugFile | .emitTree | .runTree => options

/-- Gives an option its value; two of them exclude each other. -/
def setValue (options : Options) (switch : Switch) (value : Given) : Except UsageError Options :=
  match switch with
  | .debugFile => .ok { options with debugFile := value }
  | .emitTree =>
    if options.tree.isSome then .error (.conflict .emitTree .runTree)
    else .ok { options with emit := some value }
  | .runTree =>
    if options.emit.isSome then .error (.conflict .runTree .emitTree)
    else .ok { options with tree := some value }
  | .help | .verbose => .ok options

/-- Options without values that are joined behind a single dash: each letter must be one of them. -/
def setJoined (options : Options) (switch : Switch) : List Char → Except UsageError Options
  | [] => .ok (options.flag switch)
  | letter :: rest =>
    match Switch.spellings.lookup (String.ofList ['-', letter]) with
    | some next => (options.flag switch).setJoined next rest
    | none => .error (.ignoredValue switch (String.ofList (letter :: rest)))

/-- An option without a value, to which a value or more letters may be joined by
mistake or on purpose. -/
def setFlag (options : Options) (switch : Switch) : Option String → Except UsageError Options
  | none => .ok (options.flag switch)
  | some "" => .error (.ignoredValue switch "")
  | some joined => options.setJoined switch joined.toList

/--
Takes up arguments in turn, the first plain one as the script, and collects those
that have no place.

A separator says nothing if the script stands right before it or has not been seen yet.
-/
def takeUp (options : Options) (extras : List String) (scriptJustSeen : Bool) :
    List Argument → Except UsageError (Options × List String)
  | [] => .ok (options, extras.reverse)
  | .plain text :: rest =>
    match options.script with
    | none => takeUp { options with script := some text } extras true rest
    | some _ => takeUp options (text :: extras) false rest
  | .separator :: rest =>
    if options.script.isNone || scriptJustSeen then takeUp options extras false rest
    else takeUp options ("--" :: extras) false rest
  | .unknownOption text :: rest => takeUp options (text :: extras) false rest
  | .option switch (some value) :: rest => do
    if switch.takesValue then takeUp (← options.setValue switch (.ofString value)) extras false rest
    else takeUp (← options.setFlag switch (some value)) extras false rest
  | .option switch none :: rest =>
    if switch.takesValue then
      match rest with
      | .plain value :: rest =>
        do takeUp (← options.setValue switch (.text value)) extras false rest
      | _ => .error (.missingValue switch)
    else takeUp (options.flag switch) extras false rest

/-- What the arguments of a command line ask for. -/
def parse (arguments : List String) : Except UsageError Options := do
  let (options, extras) ← takeUp {} [] false (← Argument.classifyAll arguments)
  if extras.isEmpty || options.helpWanted then return options else .error (.unrecognized extras)

end Options

end LoxLang
