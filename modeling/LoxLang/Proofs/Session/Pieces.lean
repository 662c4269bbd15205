import LoxLang.Proofs.Execution.Tracking
import LoxLang.Proofs.Grammar.Completeness
import LoxLang.Proofs.Session.Verdict
import LoxLang.Proofs.Source.Lines

/-!
A program can be fed in pieces: two texts run one after the other as they run on lines of their own.
-/

namespace LoxLang

/-- A token further down means the same. -/
theorem Token.keepsMeaning_moved (lines : Nat) : KeepsMeaning (Token.moved lines) :=
  fun _ => ⟨rfl, rfl, rfl⟩

namespace Stmt

/-- Statements in a row nest as deep as the deeper of both parts. -/
theorem depths_append (program others : List Stmt) :
    depths (program ++ others) = max (depths program) (depths others) := by
  induction program with
  | nil => simp [depths]
  | cons first rest ih =>
    rw [List.cons_append, depths, depths, ih]
    omega

end Stmt

/-- Declarations in a row are declarations. -/
theorem Grammar.Declarations.append {ts us : List Token} {program others : List Stmt}
    (first : Declarations ts program) (second : Declarations us others) :
    Declarations (ts ++ us) (program ++ others) := by
  cases first with
  | none => exact second
  | more head tail =>
    rw [List.append_assoc]
    exact .more head (tail.append second)

section

variable [Host] {first second : String} (cleanFirst : sourceDiagnostics first = [])
  (cleanSecond : sourceDiagnostics second = [])

include cleanFirst cleanSecond

/-- Two texts on lines of their own are read as both programs in turn, the tokens of
the second further down. -/
theorem parseSource_lines :
    sourceDiagnostics (first ++ "\n" ++ second) = [] ∧
      parseSource (first ++ "\n" ++ second) =
        parseSource first ++
          Stmt.mapAllTokens (Token.moved (1 + first.toList.count '\n')) (parseSource second) := by
  -- The tokens of the second text stand behind those of the first, without the end
  -- token between them.
  have scanned := (List.append_eq_nil_iff.mp cleanFirst).1
  have scannedSecond := (List.append_eq_nil_iff.mp cleanSecond).1
  have closed : ∀ d ∈ scanDiagnostics first, d.fault ≠ .unterminatedString ∧
      d.fault ≠ .unterminatedComment := by
    simp [scanned]
  obtain ⟨tokens, ends, joined⟩ := scanTokens_lines second closed
  obtain ⟨others, last, endsSecond, _⟩ := scanTokens_ends second
  obtain ⟨derived, within⟩ := parseSource_derived cleanFirst ends
  obtain ⟨derivedSecond, withinSecond⟩ := parseSource_derived cleanSecond endsSecond
  generalize 1 + first.toList.count '\n' = lines at joined ⊢
  -- The derivations stand next to each other, and neither makes the other any deeper.
  have whole := derived.append (derivedSecond.mapTokens (Token.keepsMeaning_moved lines))
  have within : WithinNestingLimit
      (parseSource first ++ Stmt.mapAllTokens (Token.moved lines) (parseSource second)) := by
    rw [WithinNestingLimit, Stmt.depths_append, Stmt.depths_mapAllTokens]
    exact Nat.max_le.mpr ⟨within, withinSecond⟩
  rw [endsSecond, List.map_append, ← List.append_assoc] at joined
  have read : parseTokens (scanTokens (first ++ "\n" ++ second)) = _ := joined ▸
    Grammar.parseTokens_complete whole within
      (rfl : (Token.moved lines (endToken last)).kind = Kind.eof)
  constructor
  · rw [sourceDiagnostics, scanDiagnostics_lines second closed, scanned, scannedSecond, read]
    rfl
  · rw [parseSource, read]
    rfl

end

/--
The program of a text ends by itself or with a runtime error, where all variables hold
values that can be shown.

The error is one that every channel takes, and all variables hold such values afterwards.
-/
theorem executeAll_parseSource [Host] {source : String} (clean : sourceDiagnostics source = [])
    {machine : Machine} (plain : machine.forest.Holds (·.isPlain)) :
    ∃ (ending : Except RuntimeError Unit) (after : Machine),
      Exec.executeAll (parseSource source) machine = (ending.mapError .failed, after) ∧
        (∀ error, ending = .error error → error.debugLine.isPlain) ∧
        after.forest.Holds (·.isPlain) := by
  have supplied := (supplies_proper source).mono (fun _ member => member)
    fun _ => Value.isPlain_of_isProper
  obtain ⟨made, within⟩ := parseSource_madeOf clean supplied
  obtain ⟨holds, ends⟩ := Exec.safe_executeAll Exec.sound_isPlain made within machine plain
  obtain ⟨ending, same, blamed⟩ := ends.exists_ending
  refine ⟨ending, _, Prod.ext same rfl, fun error is => ?_, holds⟩
  obtain ⟨wording, token, _, blames⟩ := blamed error is
  exact Session.isPlain_debugLine blames wording

namespace Session

/-- With clear flags and nothing to tell of itself, a session just interprets a text
without a diagnostic. -/
theorem run_of_clean [Host] {session : Session} {source : String} (clear : session.flags = {})
    (silent : session.machine.debugLevel = 0) (clean : sourceDiagnostics source = []) :
    session.run source = session.interpret (parseSource source) := by
  rw [run_eq, parse_of_silent silent clean, clear]
  rfl

/-- A text that leaves the flag of static errors down has no diagnostic. -/
theorem clean_of_unflagged [Host] {session : Session} {source : String}
    (unflagged : ¬(session.parse source).1.flags.hadError = true) :
    sourceDiagnostics source = [] := by
  rw [flags_parse] at unflagged
  have both : session.flags.hadError = false ∧ sourceDiagnostics source = [] := by
    simpa using unflagged
  exact both.2

/--
A text runs without a failure where all variables hold values that can be shown, and
so they do afterwards.

Whatever else the session has been through does not matter.
-/
theorem run_of_plain [Host] {session : Session} (plain : session.machine.forest.Holds (·.isPlain))
    (source : String) :
    (session.run source).2 = none ∧ (session.run source).1.machine.forest.Holds (·.isPlain) := by
  -- Reading a text changes no variable.
  have read := (Tells.parse session source).forest
  rw [run_eq]
  split
  case isTrue =>
    rw [read]
    exact ⟨rfl, plain⟩
  case isFalse unflagged =>
    -- Without the flag there is no diagnostic, so that the program ends as it should.
    rw [← read] at plain
    obtain ⟨ending, after, ran, told, still⟩ :=
      executeAll_parseSource (clean_of_unflagged unflagged) plain
    obtain ⟨ended, interpreted, tells⟩ := interpret_tells ran told
    rw [interpreted, tells.forest]
    exact ⟨rfl, still⟩

/-- Programs in a row are interpreted in turn, unless the first of them halts. -/
theorem interpret_append [Host] (session : Session) (program others : List Stmt) :
    session.interpret (program ++ others) =
      match Exec.executeAll program session.machine with
      | (.ok (), after) => { session with machine := after }.interpret others
      | (.error _, _) => session.interpret program := by
  -- A halt of the first program is passed on, and what it is does not matter here.
  rw [interpret, Exec.executeAll_append, Exec.bind_eq]
  rcases ran : Exec.executeAll program session.machine with ⟨_ | _, after⟩
  · rw [interpret, ran]
  · rfl

/--
How two sessions end alike if one of them ran the program of the other so many lines further down.

They are the same, unless a runtime error ended both runs: then each got one report
of it, on lines so far apart.
-/
inductive EndsBelow (lines : Nat) : Session → Session → Prop where
  | finished (ended : Session) : ended.flags.hadRuntimeError = false → EndsBelow lines ended ended
  | failed (before : Session) (line : Int) (message : String) :
    before.flags.hadRuntimeError = false →
    EndsBelow lines (before.notify (.runtime (.int line) message))
      (before.notify (.runtime (.int (line + lines)) message))

/-- Sessions that end alike have the same variables and flags, and printed the same. -/
theorem EndsBelow.same {lines : Nat} {ended below : Session} (alike : EndsBelow lines ended below) :
    Event.output below.drain.2 = Event.output ended.drain.2 ∧ below.globals = ended.globals ∧
      below.flags = ended.flags := by
  cases alike with
  | finished => exact ⟨rfl, rfl, rfl⟩
  | failed before line message _ =>
    -- A report is nothing printed, and it raises the same flag on either line.
    rw [output_drain, output_drain]
    exact ⟨rfl, rfl, rfl⟩

section

variable [Host] {session : Session} {source : String} (clear : session.flags = {})
  (silent : session.machine.debugLevel = 0) (clean : sourceDiagnostics source = [])

include clear silent clean

/-- A text runs as its program is interpreted further down, from any session with clear flags. -/
theorem interpret_moved (lines : Nat) :
    ∃ ended below failure, session.run source = (ended, failure) ∧
      session.interpret (Stmt.mapAllTokens (Token.moved lines) (parseSource source)) =
        (below, failure) ∧
      EndsBelow lines ended below := by
  -- Both runs leave the same machine, so that the sessions can differ in the report only.
  obtain ⟨made, within⟩ := parseSource_madeOf clean (supplies_proper source)
  obtain ⟨same, ends⟩ :=
    Exec.tracks_executeAll (Token.keepsMeaning_moved lines) made session.machine
  have leads := Exec.leading_executeAll (parseSource source) session.machine
  rw [run_of_clean clear silent clean, interpret, interpret]
  rcases ran : Exec.executeAll (parseSource source) session.machine with ⟨result, after⟩
  rcases ranBelow : Exec.executeAll (Stmt.mapAllTokens (Token.moved lines) (parseSource source))
    session.machine with ⟨resultBelow, afterBelow⟩
  rw [ran, ranBelow] at same ends
  rw [ran] at leads
  obtain rfl : afterBelow = after := same
  have stillSilent : afterBelow.debugLevel = 0 := leads.debugLevel_eq.trans silent
  have unflagged : session.flags.hadRuntimeError = false := by rw [clear]
  cases ends with
  | ok => exact ⟨_, _, none, rfl, rfl, .finished _ unflagged⟩
  | failed token fault =>
    -- Without debug lines, the report is all that is told of the error.
    refine ⟨_, _, none, blame_of_silent stillSilent _, blame_of_silent stillSilent _, ?_⟩
    exact .failed _ token.line fault.message.escaped unflagged
  | @halted halt other =>
    cases halt with
    | failed error => exact absurd rfl (other error)
    | unsupported | nestedTooDeeply | unwritable =>
      exact ⟨_, _, _, rfl, rfl, .finished _ unflagged⟩

end

/-- Where all variables hold values that can be shown, a text without a diagnostic
runs without a failure. -/
theorem interpret_parseSource_of_plain [Host] {session : Session} {source : String}
    (clean : sourceDiagnostics source = []) (plain : session.machine.forest.Holds (·.isPlain)) :
    ∃ ended, session.interpret (parseSource source) = (ended, none) ∧
      ended.machine.forest.Holds (·.isPlain) := by
  obtain ⟨ending, after, ran, writable, stillPlain⟩ := executeAll_parseSource clean plain
  obtain ⟨ended, interpreted, told⟩ := interpret_tells ran writable
  exact ⟨ended, interpreted, told.forest ▸ stillPlain⟩

/--
A program can be fed in pieces.

Two texts without a diagnostic have none on lines of their own either. The first fails only
where a variable holds a value that cannot be shown, and so do both. If the first runs without a
runtime error, running the second after it gives what running both together gives. Only a
runtime error of the second is reported further down then, by the line ends of the first and the
one between them. If the first ends with a runtime error or a failure, the second has no effect
on the run of both together.
-/
theorem run_lines [Host] {session : Session} {first second : String} (clear : session.flags = {})
    (silent : session.machine.debugLevel = 0) (cleanFirst : sourceDiagnostics first = [])
    (cleanSecond : sourceDiagnostics second = []) :
    sourceDiagnostics (first ++ "\n" ++ second) = [] ∧
    (session.machine.forest.Holds (·.isPlain) → (session.run first).2 = none) ∧
    ((session.run first).2 = none → (session.run first).1.flags.hadRuntimeError = false →
      ∃ ended together failure, (session.run first).1.run second = (ended, failure) ∧
        session.run (first ++ "\n" ++ second) = (together, failure) ∧
        (session.machine.forest.Holds (·.isPlain) → failure = none) ∧
        Event.output together.drain.2 = Event.output ended.drain.2 ∧
          together.globals = ended.globals ∧
        together.flags = ended.flags ∧ EndsBelow (1 + first.toList.count '\n') ended together) ∧
    ((session.run first).2 ≠ none ∨ (session.run first).1.flags.hadRuntimeError = true →
      session.run (first ++ "\n" ++ second) = session.run first) := by
  -- Everything is reduced to interpreting programs, of which the first may halt or not.
  obtain ⟨clean, read⟩ := parseSource_lines cleanFirst cleanSecond
  rw [run_of_clean clear silent cleanFirst, run_of_clean clear silent clean, read, interpret_append]
  refine ⟨clean, fun plain => ?_, ?_⟩
  · obtain ⟨ended, interpreted, _⟩ := interpret_parseSource_of_plain cleanFirst plain
    rw [interpreted]
  have leads := Exec.leading_executeAll (parseSource first) session.machine
  rcases ran : Exec.executeAll (parseSource first) session.machine with ⟨result, after⟩
  rw [ran] at leads
  have stillSilent : after.debugLevel = 0 := leads.debugLevel_eq.trans silent
  cases result with
  | error halt =>
    -- The run of both together ends where that of the first does, which is flagged or a failure.
    refine ⟨fun none_ unflagged => ?_, fun _ => rfl⟩
    rw [interpret, ran] at none_ unflagged
    cases halt with
    | failed error =>
      have told : blame { session with machine := after } error = _ :=
        blame_of_silent stillSilent error
      simp only [told] at unflagged
      cases unflagged
    | unsupported | nestedTooDeeply | unwritable => cases none_
  | ok =>
    have between : session.interpret (parseSource first) =
        ({ session with machine := after }, none) := by
      rw [interpret, ran]
    rw [between]
    refine ⟨fun _ _ => ?_, fun halted => ?_⟩
    · -- The second program starts from the same session, alone and behind the first.
      obtain ⟨ended, together, failure, alone, behind, alike⟩ :=
        @interpret_moved _ { session with machine := after } second clear stillSilent cleanSecond _
      obtain ⟨printed, globals, flags⟩ := alike.same
      refine ⟨ended, together, failure, alone, behind, fun plain => ?_, printed, globals,
        flags, alike⟩
      obtain ⟨middle, interpreted, stillPlain⟩ := interpret_parseSource_of_plain cleanFirst plain
      rw [between] at interpreted
      cases interpreted
      obtain ⟨_, finished, _⟩ := interpret_parseSource_of_plain cleanSecond stillPlain
      have alsoAlone := @run_of_clean _ { session with machine := after } second clear stillSilent
        cleanSecond
      rw [alsoAlone, finished] at alone
      exact (Prod.ext_iff.mp alone).2.symm
    · rcases halted with failed | flagged
      · exact absurd rfl failed
      · rw [clear] at flagged
        cases flagged

set_option maxRecDepth 20000 in
/-- Negating nil fails two lines further down behind two lines of a text, and hides
that text if it follows. -/
theorem run_lines_negated_nil :
    (∃ ended together, ((start 0 []).run "var a;\nprint nil;").1.run "-nil;" = (ended, none) ∧
      (start 0 []).run ("var a;\nprint nil;" ++ "\n" ++ "-nil;") = (together, none) ∧
      Event.output together.drain.2 = Event.output ended.drain.2 ∧
        together.globals = ended.globals ∧
      together.flags = ended.flags ∧ EndsBelow 2 ended together) ∧
    (start 0 []).run ("-nil;" ++ "\n" ++ "var a;\nprint nil;") = (start 0 []).run "-nil;" := by
  -- Each piece is clean; the first finishes and the second fails.
  have declared : sourceDiagnostics "var a;\nprint nil;" = [] ∧ parseSource "var a;\nprint nil;" =
      [.declare (.token { kind := .identifier, lexeme := "a", line := .ofNat 1 }) none,
        .print (.literal .nil)] := ⟨by with_unfolding_all rfl, by with_unfolding_all rfl⟩
  have negated : sourceDiagnostics "-nil;" = [] ∧ parseSource "-nil;" =
      [.expression
        (.unary (.token { kind := .minus, lexeme := "-", line := .ofNat 1 }) (.literal .nil))] :=
        ⟨by with_unfolding_all rfl, by with_unfolding_all rfl⟩
  have finishes : ((start 0 []).run "var a;\nprint nil;").1.flags.hadRuntimeError = false := by
    rw [run_of_clean rfl rfl declared.1, declared.2]
    rfl
  have fails : ((start 0 []).run "-nil;").1.flags.hadRuntimeError = true := by
    rw [run_of_clean rfl rfl negated.1, negated.2]
    rfl
  have plain : (start 0 []).machine.forest.Holds (·.isPlain) := .root (by simp)
  -- One order runs both pieces, the other ends with the failure.
  obtain ⟨_, succeeds, inTurn, _⟩ := @run_lines _ (start 0 []) _ _ rfl rfl declared.1 negated.1
  obtain ⟨ended, together, failure, alone, both, unfailing, same⟩ :=
    inTurn (succeeds plain) finishes
  rw [unfailing plain] at alone both
  exact ⟨⟨ended, together, alone, both, same⟩,
    (run_lines rfl rfl negated.1 declared.1).2.2.2 (.inr fails)⟩

end Session

end LoxLang
