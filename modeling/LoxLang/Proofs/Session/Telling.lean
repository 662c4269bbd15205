import LoxLang.Proofs.Execution.Runs
import LoxLang.Proofs.Value.Plain
import LoxLang.Session

/-! What a session tells while it reads a source text, and that reading changes nothing else. -/

namespace LoxLang

namespace Flags

/-- Notices of both kinds are noted in turn. -/
theorem noteAll_append (flags : Flags) (first second : List Notice) :
    flags.noteAll (first ++ second) = (flags.noteAll first).noteAll second :=
  List.foldl_append

/-- Diagnostics raise one flag, whatever they say. -/
theorem noteAll_diagnostics (flags : Flags) (diagnostics : List Diagnostic) :
    flags.noteAll (diagnostics.map (·.notice)) =
      { flags with hadError := flags.hadError || !diagnostics.isEmpty } := by
  induction diagnostics generalizing flags with
  | nil => simp [noteAll]
  | cons first rest ih =>
    -- The first one raises the flag, and it stays up.
    rw [List.map_cons, noteAll, List.foldl_cons]
    refine (ih _).trans ?_
    simp [Flags.note, Diagnostic.notice]

end Flags

namespace Event

/-- The error channel shows the texts of the reports. -/
theorem errors_eq (events : List Event) :
    errors events = Notice.texts (events.filterMap notice?) := by
  rw [errors, Notice.texts, List.map_filterMap]
  congr 2
  funext event
  cases event <;> rfl

/-- The output channel shows the printed texts. -/
theorem output_eq (events : List Event) : output events = String.join (events.filterMap text?) := by
  rw [output]
  congr 2
  funext event
  cases event <;> rfl

end Event

namespace Session

/-- The error channel shows the reports in the order in which they were made. -/
theorem errors_drain (session : Session) :
    Event.errors session.drain.2 = Notice.texts session.machine.notices.reverse := by
  rw [Event.errors_eq, drain, Machine.notices, List.filterMap_reverse]

/-- The output channel shows the texts in the order in which they were printed. -/
theorem output_drain (session : Session) :
    Event.output session.drain.2 = String.join session.machine.texts.reverse := by
  rw [Event.output_eq, drain, Machine.texts, List.filterMap_reverse]

/-- Whether a session comes from another by given reports, debug lines apart: it has run
nothing and printed nothing. -/
structure Tells (told : List Notice) (before after : Session) : Prop where
  forest : after.machine.forest = before.machine.forest
  current : after.machine.current = before.machine.current
  debugLevel : after.machine.debugLevel = before.machine.debugLevel
  texts : after.machine.texts = before.machine.texts
  notices : after.machine.notices = told.reverse ++ before.machine.notices
  flags : after.flags = before.flags.noteAll told

namespace Tells

variable {first second third : Session}

/-- A session without a report tells nothing. -/
theorem refl (session : Session) : Tells [] session session := by
  constructor <;> rfl

/-- What is told in turn is told together. -/
theorem trans {earlier later : List Notice} (told : Tells earlier first second)
    (toldNext : Tells later second third) :
    Tells (earlier ++ later) first third where
  forest := toldNext.forest.trans told.forest
  current := toldNext.current.trans told.current
  debugLevel := toldNext.debugLevel.trans told.debugLevel
  texts := toldNext.texts.trans told.texts
  notices := by rw [toldNext.notices, told.notices, List.reverse_append, List.append_assoc]
  flags := by rw [toldNext.flags, told.flags, Flags.noteAll_append]

/-- Debug lines are not reports. -/
theorem debug (session : Session) (level : Nat) (message : String) :
    Tells [] session (session.debug level message) where
  forest := Machine.forest_debug ..
  current := Machine.current_debug ..
  debugLevel := Machine.debugLevel_debug ..
  texts := Machine.texts_debug ..
  notices := Machine.notices_debug ..
  flags := rfl

/-- A notice is a report. -/
theorem notify (session : Session) (notice : Notice) :
    Tells [notice] session (session.notify notice) := by
  constructor <;> rfl

/-- Diagnostics are reports in turn. -/
theorem diagnose (session : Session) (diagnostics : List Diagnostic) :
    Tells (diagnostics.map (·.notice)) session (session.diagnose diagnostics) := by
  induction diagnostics generalizing session with
  | nil => exact refl session
  | cons first rest ih => exact (notify session first.notice).trans (ih _)

/-- Tokens are told in debug lines. -/
theorem describeTokens (session : Session) (tokens : List Token) :
    Tells [] session (session.describeTokens tokens) := by
  -- Each token has a debug line of its own, and none of them is a report.
  have each (session : Session) : Tells [] session
      (tokens.foldl (fun session token => session.debug 3 ("  " ++ token.text)) session) := by
    induction tokens generalizing session with
    | nil => exact refl session
    | cons token rest ih => exact (debug session 3 _).trans (ih _)
  have counted := debug session 2 ("scanned " ++ toString tokens.length ++ " tokens")
  rw [Session.describeTokens]
  split
  · exact counted.trans (each _)
  · exact counted

/-- A program is told in a debug line. -/
theorem describeProgram [Host] (session : Session) (program : List Stmt) :
    Tells [] session (session.describeProgram program) := by
  rw [Session.describeProgram]
  split
  · exact debug ..
  · exact refl session

/-- Reading a source text tells its diagnostics, lexical mistakes first, and does nothing else. -/
theorem parse [Host] (session : Session) (source : String) :
    Tells ((sourceDiagnostics source).map (·.notice)) session (session.parse source).1 := by
  -- The two lists of diagnostics are told in turn, with debug lines in between.
  have scanned :=
    (diagnose session (scanDiagnostics source)).trans (describeTokens _ (scanTokens source))
  have parsed := (scanned.trans (diagnose _ (parseTokens (scanTokens source)).reports)).trans
    (describeProgram _ (parseTokens (scanTokens source)).statements)
  simpa [sourceDiagnostics, Session.parse] using parsed

end Tells

/-- A runtime error is one report, unless the debug channel refuses the line about it. -/
theorem blame_cases (session : Session) (error : RuntimeError) :
    (∃ ended, session.blame error = (ended, none) ∧ Tells [error.notice] session ended) ∨
      error.debugLine.isPlain = false ∧
        ∃ blot, session.blame error = (session, some (.unwritable .debug blot)) := by
  unfold blame
  cases error.debugLine with
  | plain message => exact .inl ⟨_, rfl, (Tells.debug session 1 message).trans (.notify _ _)⟩
  | garbled text =>
    dsimp only
    split
    · exact .inr ⟨rfl, _, rfl⟩
    · exact .inl ⟨_, rfl, .notify _ _⟩

/-- A runtime error that every channel takes is one report. -/
theorem blame_tells {error : RuntimeError} (plain : error.debugLine.isPlain) (session : Session) :
    ∃ ended, session.blame error = (ended, none) ∧ Tells [error.notice] session ended := by
  rcases blame_cases session error with reported | ⟨garbled, _⟩
  · exact reported
  · rw [plain] at garbled
    cases garbled

/-- A session that tells nothing of itself reports a runtime error, and does nothing else. -/
theorem blame_of_silent {session : Session} (silent : session.machine.debugLevel = 0)
    (error : RuntimeError) :
    session.blame error = (session.notify error.notice, none) := by
  unfold blame
  cases error.debugLine with
  | plain message => simp [debug, Machine.debug, silent]
  | garbled text => simp [silent]

/-- What is told of an error blamed on a token is plain if the wording is. -/
theorem isPlain_debugLine {error : RuntimeError} {token : Token}
    (blamed : error.blamed = .token token) (plain : error.fault.message.isPlain) :
    error.debugLine.isPlain := by
  rw [RuntimeError.debugLine, RuntimeError.line, blamed]
  cases wording : error.fault.message with
  | plain message => rfl
  | garbled text =>
    rw [wording] at plain
    cases plain

/-- What is reported of how a run ended: its runtime error, if there was one. -/
def reportsOf : Except RuntimeError Unit → List Notice
  | .ok () => []
  | .error error => [error.notice]

/-- A run that ends by itself or with a runtime error reports that error, and is no failure. -/
theorem interpret_tells [Host] {session : Session} {program : List Stmt}
    {ending : Except RuntimeError Unit} {after : Machine}
    (ran : Exec.executeAll program session.machine = (ending.mapError .failed, after))
    (plain : ∀ error, ending = .error error → error.debugLine.isPlain) :
    ∃ ended, session.interpret program = (ended, none) ∧
      Tells (reportsOf ending) { session with machine := after } ended := by
  -- Only a runtime error is reported; whatever else could stop the run is excluded.
  rw [interpret, ran]
  cases ending with
  | ok => exact ⟨_, rfl, .refl _⟩
  | error error => exact blame_tells (plain error rfl) _

/-- The flag of a static error goes up with the first diagnostic. -/
theorem flags_parse [Host] (session : Session) (source : String) :
    (session.parse source).1.flags =
      { session.flags with hadError := session.flags.hadError ||
        !(sourceDiagnostics source).isEmpty } := by
  rw [(Tells.parse session source).flags, Flags.noteAll_diagnostics]

/-- A session that tells nothing of itself stays as it is when it reads a text
without a diagnostic. -/
theorem parse_of_silent [Host] {session : Session} {source : String}
    (silent : session.machine.debugLevel = 0) (clean : sourceDiagnostics source = []) :
    session.parse source = (session, parseSource source) := by
  -- There is nothing to diagnose, and every debug line has a level above zero.
  obtain ⟨scanned, parsed⟩ := List.append_eq_nil_iff.mp clean
  simp [parse, parseSource, scanned, parsed, diagnose, describeTokens, describeProgram, debug,
    Machine.debug, silent]

/-- A source text is run only if no static error has been reported. -/
theorem run_eq [Host] (session : Session) (source : String) :
    session.run source =
      if (session.parse source).1.flags.hadError then ((session.parse source).1, none)
      else (session.parse source).1.interpret (parseSource source) :=
  rfl

end Session

end LoxLang
