import LoxLang.Command.Run
import LoxLang.Proofs.Disk.Files
import LoxLang.Proofs.Json.LineEnds
import LoxLang.Proofs.Session.Verdict
import LoxLang.Proofs.Tree.Codec

/-! Storing a program and running it later is the same as running it at once. -/

namespace LoxLang

/-- Whether a program can be stored: it nests within the limit, and its text is read
as what was written. -/
def IsStorable [Host] (program : List Stmt) : Prop :=
  ∃ data, (Node.ofProgram program).toJson? = some data ∧ Json.read data.write = .ok data

/-- The text of a program that can be stored is read as the tree of the program. -/
theorem loadTree_write [Host] {program : List Stmt} {data : Json}
    (stored : (Node.ofProgram program).toJson? = some data)
    (faithful : Json.read data.write = .ok data) :
    loadTree data.write = .ok (Node.ofProgram program) := by
  -- The reader gives back the JSON value, and that is read back as the tree.
  have encoded : data = (Node.ofProgram program).toJson := by
    unfold Node.toJson? at stored
    split at stored <;> simp_all
  have decoded : Node.ofJson data = .ok (Node.ofProgram program) := by
    rw [encoded, Node.ofJson_toJson]
  rw [loadTree, faithful]
  simp only [decoded]

namespace Session

/-- The stored tree of a source text without a diagnostic runs as the program that the text is. -/
theorem runTree_parseSource [Host] {source : String} (clean : sourceDiagnostics source = [])
    (session : Session) :
    session.runTree (Node.ofProgram (parseSource source)) =
      session.interpret (parseSource source) := by
  -- All the tokens in the program are tokens of the text, and such tokens are stored as they are.
  have made := (parseSource_madeOf clean (Node.supplies_plain source)).1
  rw [runTree, Node.program, Node.toProgram?_ofProgram made]

/-- A source text without a diagnostic runs to an end, with the status of a success
or of a runtime error. -/
theorem interpret_parseSource [Host] {source : String} (clean : sourceDiagnostics source = []) :
    ∃ ended, (start 0 []).interpret (parseSource source) = (ended, none) ∧
      (ended.exitCode = 0 ∨ ended.exitCode = 70) := by
  obtain ⟨made, within⟩ := parseSource_madeOf clean (supplies_proper source)
  have holds : (start 0 []).machine.forest.Holds (·.isProper) := .root (by simp)
  obtain ⟨ended, ran, -, outcome⟩ :=
    interpret_of_safe (Exec.safe_executeAll Exec.sound_isProper made within) holds
  refine ⟨ended, ran, ?_⟩
  -- The session starts with clear flags, so only the flag of a runtime error can be up.
  rcases outcome with ⟨raised, -⟩ | ⟨token, fault, -, raised, -⟩
  · exact .inl (by rw [exitCode, raised]; rfl)
  · exact .inr (by rw [exitCode, raised]; rfl)

/-- A session that has read a text with a diagnostic ends with the status of wrong data. -/
theorem exitCode_parse [Host] {source : String} (faulty : sourceDiagnostics source ≠ []) :
    ((start 0 []).parse source).1.exitCode = dataStatus := by
  rw [exitCode, flags_parse]
  simp [faulty, start, Flags.exitCode, dataStatus]

end Session

namespace Command

/-- Whether arguments ask for a task, with no debug text. -/
def Asks (arguments : List String) (task : Task) : Prop :=
  ∃ options, Options.parse arguments = .ok options ∧ options.helpWanted = false ∧
    options.verbosity = 0 ∧
    taskOf options = task

/-- The state in which a command without debug text starts. -/
def State.silent (disk : Disk) : State :=
  { session := .start 0 [], disk, debugFile := none }

/-- A command does the task that it is asked for. -/
theorem run_of_asks [Host] {arguments : List String} {task : Task} (asked : Asks arguments task)
    (disk : Disk) (input : String) :
    run disk arguments input = (State.silent disk).perform input task := by
  -- Without debug text there is no debug file to write before the task begins.
  obtain ⟨options, parsed, unhelped, quiet, rfl⟩ := asked
  simp [run, parsed, unhelped, quiet, State.flushed, State.flush, State.silent]

namespace State

/-- A command goes on with the text of a file that is found. -/
theorem withText_of_find {state : State} {path : Path} {place : Location} {bytes : ByteArray}
    {text : String} (found : state.disk.find path = .file place bytes)
    (decoded : Lines.decode? bytes = some text) (next : String → Outcome) :
    state.withText path next = next text := by
  have there : state.disk.hasPath path = true := by rw [Disk.hasPath, found]
  have readable : state.disk.read path = .ok bytes := by rw [Disk.read, found]
  simp [withText, there, readable, decoded]

/-- A command that tells nothing of itself has no debug file to bring up to date. -/
theorem concluded_silent (disk : Disk) (session : Session) :
    (silent disk).concluded session none = { silent disk with session }.finishSession :=
  rfl

/-- A text without a diagnostic is run as the program it is. -/
theorem runScript_of_clean [Host] {source : String} {ended : Session}
    (clean : sourceDiagnostics source = [])
    (ran : (Session.start 0 []).interpret (parseSource source) = (ended, none)) (disk : Disk) :
    (silent disk).runScript source = { silent disk with session := ended }.finishSession := by
  -- Reading leaves no trace in the session, so the program starts from a new one.
  have parsed : (Session.start 0 []).parse source = (Session.start 0 [], parseSource source) :=
    Session.parse_of_silent rfl clean
  have direct : (Session.start 0 []).run source = (ended, none) := by
    rw [Session.run_eq, parsed]
    exact ran
  simp only [runScript, silent, direct]
  exact concluded_silent disk ended

/-- A stored text is run as the program whose tree it is. -/
theorem runTree_of_load [Host] {source text : String} {ended : Session}
    (clean : sourceDiagnostics source = [])
    (loaded : loadTree text = .ok (Node.ofProgram (parseSource source)))
    (ran : (Session.start 0 []).interpret (parseSource source) = (ended, none)) (disk : Disk) :
    (silent disk).runTree text = { silent disk with session := ended }.finishSession := by
  have stored : (Session.start 0 []).runTree (Node.ofProgram (parseSource source)) =
      (ended, none) := by
    rw [Session.runTree_parseSource clean, ran]
  simp only [runTree, loaded, silent, stored]
  exact concluded_silent disk ended

/-- A text with a diagnostic is not stored: the command ends once it has been read. -/
theorem emit_of_diagnostics [Host] {source : String} (faulty : sourceDiagnostics source ≠ [])
    (disk : Disk) (path : Path) :
    (silent disk).emit path source =
      { silent disk with session := ((Session.start 0 []).parse source).1 }.finishSession := by
  have code : ((Session.start 0 []).parse source).1.exitCode ≠ 0 := by
    rw [Session.exitCode_parse faulty]
    decide
  exact if_pos code

/-- A text with a diagnostic is not run either. -/
theorem runScript_of_diagnostics [Host] {source : String} (faulty : sourceDiagnostics source ≠ [])
    (disk : Disk) :
    (silent disk).runScript source =
      { silent disk with session := ((Session.start 0 []).parse source).1 }.finishSession := by
  have rejected : (Session.start 0 []).run source =
      (((Session.start 0 []).parse source).1, none) := by
    rw [Session.run_eq, Session.flags_parse]
    simp [faulty]
  simp only [runScript, silent, rejected]
  exact concluded_silent disk _

/-- No name with the suffix of a stored tree stands for the directory above. -/
theorem append_suffix_ne_up (last : String) : last ++ ".ast.json" ≠ ".." := by
  -- Such a name is too long.
  intro same
  have lengths := congrArg String.length same
  rw [String.length_append] at lengths
  have long : (".ast.json" : String).length = 9 := rfl
  have short : (".." : String).length = 2 := rfl
  omega

/-- A text without a diagnostic is stored next to its script, unless a directory is in the way. -/
theorem emit_of_clean [Host] {source : String} {disk : Disk} {path : Path} {script : Location}
    {bytes : ByteArray} (clean : sourceDiagnostics source = [])
    (storable : IsStorable (parseSource source)) (found : disk.find path = .file script bytes)
    (free : disk.find (path.withSuffix ".ast.json") ≠ .directory) :
    ∃ changed place text,
      (silent disk).emit path source =
          (silent changed).finish (.status 0) ((path.withSuffix ".ast.json").toString ++ "\n") "" ∧
        disk.Gains place (String.toUTF8 text) changed ∧
        changed.find (path.withSuffix ".ast.json") = .file place text.toUTF8 ∧
        Lines.decode? text.toUTF8 = some text ∧
          loadTree text = .ok (Node.ofProgram (parseSource source)) := by
  -- The script was found, so the way to its directory is there, and a file can be written in it.
  obtain ⟨data, stored, faithful⟩ := storable
  obtain ⟨place, leads⟩ := (Disk.find_withSuffix found append_suffix_ne_up).resolve_left free
  obtain ⟨changed, written, gains, kept⟩ := Disk.write_gains leads data.write.toUTF8
  have parsed : (Session.start 0 []).parse source = (Session.start 0 [], parseSource source) :=
    Session.parse_of_silent rfl clean
  have code : (Session.start 0 []).exitCode = 0 := rfl
  refine ⟨changed, place, data.write, ?_, gains, kept, ?_, loadTree_write stored faithful⟩
  · simp only [emit, flushed, flush, silent, parsed, code, stored, written, ne_eq, not_true,
      if_false]
  · -- Line ends are unified when a file is read, but no text of a value has one to change.
    exact Lines.decode?_toUTF8 (Json.not_mem_writeAt 0 data)

/-- The reports of a session are what its command writes to the error channel. -/
theorem errors_finishSession (state : State) :
    state.finishSession.errors = Notice.texts state.session.machine.notices.reverse :=
  (String.append_empty).trans (Session.errors_drain state.session)

end State

/-- Whether two commands ended in the same way, wherever they ran. -/
def SameRun (first second : Outcome) : Prop :=
  first.ending = second.ending ∧ first.output = second.output ∧ first.errors = second.errors ∧
    first.globals = second.globals

/--
Storing a program and running it later is the same as running it at once.

A text without a diagnostic is stored in one file next to the script, and nothing else on the
disk changes. The stored program prints, reports and leaves in its variables what the script
does, with its status. A text with a diagnostic is not stored: the command reports what is
wrong, as if it had been asked to run the text.
-/
theorem run_stored_like_script [Host] {disk : Disk} {path : Path} {bytes : ByteArray}
    {source : String} {emitArguments treeArguments scriptArguments : List String}
    (emits : Asks emitArguments (.emit path))
    (loads : Asks treeArguments (.runTree (path.withSuffix ".ast.json")))
    (runs : Asks scriptArguments (.runScript path)) (readable : disk.read path = .ok bytes)
    (decoded : Lines.decode? bytes = some source) (input : String) :
    let emitted := run disk emitArguments input
    let direct := run disk scriptArguments input
    (sourceDiagnostics source = [] → IsStorable (parseSource source) →
      disk.find (path.withSuffix ".ast.json") ≠ .directory →
        emitted.ending = .status 0 ∧
          (∃ place contents, disk.Gains place contents emitted.disk ∧
            emitted.disk.find (path.withSuffix ".ast.json") = .file place contents) ∧
          SameRun (run emitted.disk treeArguments input) direct ∧
          (direct.ending = .status 0 ∨ direct.ending = .status 70)) ∧
    (sourceDiagnostics source ≠ [] →
      emitted = direct ∧ emitted.ending = .status 65 ∧ emitted.disk = disk ∧
        emitted.errors = Notice.texts ((sourceDiagnostics source).map (·.notice))) := by
  intro emitted direct
  obtain ⟨place, found⟩ := Disk.find_of_read readable
  have emitting : emitted = (State.silent disk).emit path source :=
    (run_of_asks emits disk input).trans (State.withText_of_find found decoded _)
  have running : direct = (State.silent disk).runScript source :=
    (run_of_asks runs disk input).trans (State.withText_of_find found decoded _)
  constructor
  · intro clean storable free
    -- Both runs interpret the same program in the same session, so they end in the same session.
    obtain ⟨ended, ran, code⟩ := Session.interpret_parseSource clean
    obtain ⟨changed, place, text, stored, gains, kept, reread, loaded⟩ :=
      State.emit_of_clean clean storable found free
    have storing := emitting.trans stored
    have scripted := running.trans (State.runScript_of_clean clean ran disk)
    -- What the tree is read from is what was stored, and it loads as the program.
    have changes : emitted.disk = changed := by rw [storing]; rfl
    have loading : run changed treeArguments input =
        { State.silent changed with session := ended }.finishSession :=
      (run_of_asks loads changed input).trans <|
        (State.withText_of_find kept reread _).trans
          (State.runTree_of_load clean loaded ran changed)
    refine ⟨by rw [storing]; rfl, ⟨place, _, changes ▸ gains, changes ▸ kept⟩, ?_, ?_⟩
    · rw [changes, loading, scripted]
      exact ⟨rfl, rfl, rfl, rfl⟩
    · rw [scripted]
      exact code.imp (congrArg Ending.status) (congrArg Ending.status)
  · intro faulty
    -- Both commands end once the text has been read, in the same session.
    have rejected := emitting.trans (State.emit_of_diagnostics faulty disk path)
    have told := Session.Tells.parse (Session.start 0 []) source
    refine ⟨rejected.trans (running.trans (State.runScript_of_diagnostics faulty disk)).symm,
      ?_, ?_, ?_⟩
    · rw [rejected]
      exact congrArg Ending.status (Session.exitCode_parse faulty)
    · rw [rejected]
      rfl
    · rw [rejected, State.errors_finishSession, told.notices]
      simp [Session.start, Machine.notices]

/-- A disk with one script on it. -/
def diskWith (source : String) : Disk :=
  { entries := [(["a.lox"], .file source.toUTF8)] }

set_option maxRecDepth 20000 in
/-- A script that prints nil is stored and then runs as before; one with nothing to
print is rejected both times. -/
theorem run_stored_like_script_nil :
    SameRun (run (run (diskWith "print nil;") ["--emit-ast", "a.lox"] "").disk
      ["--ast", "a.lox.ast.json"] "")
        (run (diskWith "print nil;") ["a.lox"] "") ∧
      (run (diskWith "print;") ["--emit-ast", "a.lox"] "").ending = .status 65 := by
  -- The three command lines, as the arguments ask for them.
  have emits : Asks ["--emit-ast", "a.lox"] (.emit { names := ["a.lox"] }) :=
    ⟨{ emit := some (.text "a.lox") }, by with_unfolding_all rfl, rfl,
      rfl, by with_unfolding_all rfl⟩
  have loads : Asks ["--ast", "a.lox.ast.json"] (.runTree { names := ["a.lox.ast.json"] }) :=
    ⟨{ tree := some (.text "a.lox.ast.json") }, by with_unfolding_all rfl, rfl,
      rfl, by with_unfolding_all rfl⟩
  have runs : Asks ["a.lox"] (.runScript { names := ["a.lox"] }) :=
    ⟨{ script := some "a.lox" }, by with_unfolding_all rfl, rfl, rfl, by with_unfolding_all rfl⟩
  have readable (source : String) : (diskWith source).read { names := ["a.lox"] } =
      .ok source.toUTF8 := rfl
  -- One of the two scripts is read whole; its tree stores.
  have scanned : scanTokens "print nil;" =
      [{ kind := .kwPrint, lexeme := "print" }, { kind := .kwNil, lexeme := "nil" },
        { kind := .semicolon, lexeme := ";" }, { kind := .eof, lexeme := "" }] := by
    with_unfolding_all rfl
  have program : parseTokens (scanTokens "print nil;") =
      { result := .ok [.print (.literal .nil)], rest := [{ kind := .eof, lexeme := "" }],
        reports := [] } := by
    rw [scanned]
    rfl
  have clean : sourceDiagnostics "print nil;" = [] := by
    rw [sourceDiagnostics, program]
    with_unfolding_all rfl
  have storable : IsStorable (parseSource "print nil;") := by
    rw [parseSource, program]
    exact ⟨_, rfl, rfl⟩
  -- The other has nothing to print, which is reported.
  have faulty : sourceDiagnostics "print;" ≠ [] := by
    have scanned : scanTokens "print;" =
        [{ kind := .kwPrint, lexeme := "print" }, { kind := .semicolon, lexeme := ";" },
          { kind := .eof, lexeme := "" }] := by with_unfolding_all rfl
    rw [sourceDiagnostics, scanned]
    exact List.append_ne_nil_of_right_ne_nil _ (by decide)
  have stored := run_stored_like_script emits loads runs (readable "print nil;")
    (Lines.decode?_toUTF8 (by decide)) ""
  have rejected := run_stored_like_script emits loads runs (readable "print;")
    (Lines.decode?_toUTF8 (by decide)) ""
  exact ⟨(stored.1 clean storable (by rintro ⟨⟩)).2.2.1, (rejected.2 faulty).2.1⟩

end Command

end LoxLang
