import LoxLang.Proofs.Execution.Safety
import LoxLang.Proofs.Grammar.Soundness
import LoxLang.Proofs.Session.Telling
import LoxLang.Proofs.Source.Tokens
import Mathlib.Logic.ExistsUnique

/-! Every source text can be run: it is rejected, fails with one runtime error, or finishes. -/

namespace LoxLang

/-- A value that can be written is proper. -/
theorem Value.IsWritten.isProper {value : Value} (written : value.IsWritten) : value.isProper := by
  cases written <;> rfl

/-- The tokens of a source text stand for proper values. -/
theorem supplies_proper (source : String) :
    Supplies (· ∈ scanTokens source) (·.isProper) (scanTokens source) :=
  (supplies_scanTokens source).mono (fun _ member => member) fun _ written => written.isProper

/-- The tokens of a source text are read to the end, whatever its mistakes are. -/
theorem parseTokens_scanTokens_ok [Host] (source : String) :
    (parseTokens (scanTokens source)).result = .ok (parseSource source) := by
  -- Reading stays before the end token and always goes on, so it has a result.
  obtain ⟨tokens, last, same, lawful⟩ := scanTokens_ends source
  have closed : (endToken last).kind = .eof := rfl
  obtain ⟨seen, program, ok, _, taken⟩ :=
    parseTokens_before_end (fun token member => (lawful token member).2) closed
  rw [parseSource, same, taken []]
  simp [Parsed.statements, ok]

/-- Without a diagnostic, a source text is derived from the tokens before its end,
within the limit. -/
theorem parseSource_derived [Host] {source : String} (clean : sourceDiagnostics source = [])
    {tokens : List Token} {last : Nat} (ends : scanTokens source = tokens ++ [endToken last]) :
    Grammar.Declarations tokens (parseSource source) ∧ WithinNestingLimit (parseSource source) := by
  -- Only the end token follows the others, so what is read without a report is derived from them.
  obtain ⟨before, line, same, lawful⟩ := scanTokens_ends source
  obtain ⟨rfl, _⟩ := List.append_inj' (ends.symm.trans same) rfl
  have quiet := (List.append_eq_nil_iff.mp clean).2
  rw [ends] at quiet
  obtain ⟨program, read, derived, within⟩ :=
    Grammar.parseTokens_sound (fun token member => (lawful token member).2) rfl quiet
  have found : parseSource source = program := by
    rw [parseSource, ends, read, Parsed.statements]
  exact found ▸ ⟨derived, within⟩

/-- Without a diagnostic, a source text is a program of the grammar within the
limit, made of its own tokens. -/
theorem parseSource_madeOf [Host] {source : String} {tokens : Token → Prop} {values : Value → Prop}
    (clean : sourceDiagnostics source = [])
    (supplied : Supplies tokens values (scanTokens source)) :
    (∀ stmt ∈ parseSource source, stmt.MadeOf tokens values) ∧
      WithinNestingLimit (parseSource source) := by
  obtain ⟨before, last, same, _⟩ := scanTokens_ends source
  obtain ⟨derived, within⟩ := parseSource_derived clean same
  exact ⟨derived.madeOf (supplied.of_subset (by simp [same])), within⟩

/-- How the run of a source text can end. -/
inductive Verdict where
  /-- The text has static errors, and nothing of it was run. -/
  | rejected
  /-- A runtime error ended the run. -/
  | failed
  | finished
deriving DecidableEq, Repr

/-- The flags that a verdict raises. -/
def Verdict.flags : Verdict → Flags
  | rejected => { hadError := true }
  | failed => { hadRuntimeError := true }
  | finished => {}

namespace Session

/-- Whether a session shows the verdict of a source text, in its flags and on its channels. -/
def Shows [Host] (ended : Session) (source : String) (verdict : Verdict) : Prop :=
  ended.flags = verdict.flags ∧
    match verdict with
    | .rejected =>
      Event.output ended.drain.2 = "" ∧
        sourceDiagnostics source ≠ [] ∧
        Event.errors ended.drain.2 = Notice.texts ((sourceDiagnostics source).map (·.notice))
    | .failed =>
      ∃ token ∈ scanTokens source, ∃ fault : RuntimeFault,
        Event.errors ended.drain.2 = (Notice.runtime (.int token.line) fault.message.escaped).text
    | .finished => Event.errors ended.drain.2 = ""

/-- A session shows one verdict only. -/
theorem Shows.unique [Host] {ended : Session} {source : String} {first second : Verdict}
    (shown : ended.Shows source first) (also : ended.Shows source second) : first = second := by
  -- The flags alone tell the verdicts apart.
  have same : first.flags = second.flags := shown.1.symm.trans also.1
  cases first <;> cases second <;> simp [Verdict.flags] at same ⊢

/-- A safe program runs to its end, or up to one runtime error that is reported. -/
theorem interpret_of_safe [Host] {session : Session} {program : List Stmt} {tokens : Token → Prop}
    {kept : Value → Prop}
    (safe : Exec.Safe kept tokens (fun _ => True) False (Exec.executeAll program))
    (holds : session.machine.forest.Holds kept) :
    ∃ ended, session.interpret program = (ended, none) ∧ ended.machine.forest.Holds kept ∧
      ((ended.flags = session.flags ∧ ended.machine.notices = session.machine.notices) ∨
        ∃ token fault, tokens token ∧ ended.flags = { session.flags with hadRuntimeError := true } ∧
          ended.machine.notices =
            .runtime (.int token.line) (RuntimeFault.message fault).escaped ::
              session.machine.notices) := by
  -- The run itself reports nothing, so the notices grow by its runtime error at most.
  obtain ⟨stillHolds, ends⟩ := safe session.machine holds
  have leads := Exec.leading_executeAll program session.machine
  rcases ran : Exec.executeAll program session.machine with ⟨result, after⟩
  rw [ran] at stillHolds ends leads
  have quiet : after.notices = session.machine.notices := leads.notices_eq
  obtain ⟨ending, rfl, blamed⟩ := ends.exists_ending
  have plain : ∀ error, ending = .error error → error.debugLine.isPlain := by
    intro error same
    obtain ⟨wording, token, _, blames⟩ := blamed error same
    exact isPlain_debugLine blames wording
  obtain ⟨ended, interpreted, told⟩ := interpret_tells ran plain
  refine ⟨ended, interpreted, told.forest ▸ stillHolds, ?_⟩
  cases ending with
  | ok => exact .inl ⟨told.flags, told.notices.trans quiet⟩
  | error error =>
    -- The line of the report is that of the token that is blamed.
    obtain ⟨_, token, known, blames⟩ := blamed error rfl
    have noticed : error.notice = .runtime (.int token.line) error.fault.message.escaped := by
      rw [RuntimeError.notice, RuntimeError.line, blames]
      rfl
    refine .inr ⟨token, error.fault, known, told.flags, ?_⟩
    rw [← noticed, ← quiet]
    exact told.notices

/--
Every source text can be run.

It is read to its end and run without a failure. The session then shows exactly one verdict:
rejection with diagnostics, one runtime error, or no error at all. Every variable holds nil, a
boolean, a number or a string.
-/
theorem run_shows_one_verdict [Host] (debugLevel : Nat) (source : String) :
    (∃ program, (parseTokens (scanTokens source)).result = .ok program) ∧
    ∃ ended, (start debugLevel []).run source = (ended, none) ∧
      (∃! verdict, ended.Shows source verdict) ∧
      ∀ binding ∈ ended.globals, binding.2.isProper := by
  refine ⟨⟨_, parseTokens_scanTokens_ok source⟩, ?_⟩
  -- No session shows two verdicts, so it is enough to find one.
  suffices shown : ∃ ended, (start debugLevel []).run source = (ended, none) ∧
      ended.machine.forest.Holds (·.isProper) ∧ ∃ verdict, ended.Shows source verdict by
    obtain ⟨ended, ran, holds, verdict, shows⟩ := shown
    exact ⟨ended, ran, ⟨verdict, shows, fun _ also => also.unique shows⟩, holds globalScope⟩
  have told := Tells.parse (start debugLevel []) source
  have flags := flags_parse (start debugLevel []) source
  have holds : (start debugLevel []).machine.forest.Holds (·.isProper) := .root (by simp)
  rw [← told.forest] at holds
  rw [run_eq]
  by_cases clean : sourceDiagnostics source = []
  · -- A text without a diagnostic is a safe program, and reading it reports nothing.
    obtain ⟨made, within⟩ := parseSource_madeOf clean (supplies_proper source)
    have unflagged : ((start debugLevel []).parse source).1.flags = {} := by
      rw [flags, clean]
      rfl
    have unreported : ((start debugLevel []).parse source).1.machine.notices = [] := by
      rw [told.notices, clean]
      rfl
    obtain ⟨ended, ran, holds, outcome⟩ :=
      interpret_of_safe (Exec.safe_executeAll Exec.sound_isProper made within) holds
    rw [unflagged, unreported] at outcome
    refine ⟨ended, by simp [unflagged, ran], holds, ?_⟩
    rcases outcome with ⟨raised, noticed⟩ | ⟨token, fault, known, raised, noticed⟩
    · exact ⟨.finished, raised, by rw [errors_drain, noticed]; rfl⟩
    · refine ⟨.failed, raised, token, known, fault, ?_⟩
      rw [errors_drain, noticed]
      simp [Notice.texts]
  · -- A text with a diagnostic is not run, so the session shows the diagnostics and nothing else.
    have flagged : ((start debugLevel []).parse source).1.flags = { hadError := true } := by
      rw [flags]
      simp [clean, start]
    refine ⟨_, by simp [flagged], holds, .rejected, flagged, ?_, clean, ?_⟩
    · rw [output_drain, told.texts]
      rfl
    · rw [errors_drain, told.notices]
      simp [start, Machine.notices]

end Session

end LoxLang
