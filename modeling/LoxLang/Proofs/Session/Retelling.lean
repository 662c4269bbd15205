import LoxLang.Proofs.Execution.Retelling
import LoxLang.Proofs.Session.Turns

/-!
Sessions do not look at what has been told either: they serve a request alike, whatever
was told before it.
-/

namespace LoxLang

/-- Whether a step of a session gives up for any reason but that the debug channel
refused a line, or not at all. -/
def Unrefused (failure : Option Failure) : Prop :=
  ∀ blot, failure ≠ some (.unwritable .debug blot)

namespace Session

/-- A session whose events are changed. -/
def retold (retelling : Retelling) (session : Session) : Session :=
  { session with machine := session.machine.retold retelling }

/-- The debug lines about tokens are the same whether or not the level is looked at before. -/
theorem describeTokens_eq (session : Session) (tokens : List Token) :
    session.describeTokens tokens =
      tokens.foldl (fun session token => session.debug 3 ("  " ++ token.text))
        (session.debug 2 ("scanned " ++ toString tokens.length ++ " tokens")) := by
  have quiet (session : Session) (low : ¬3 ≤ session.machine.debugLevel) :
      tokens.foldl (fun session token => session.debug 3 ("  " ++ token.text)) session =
        session := by
    -- Below the level, each of the lines is dropped.
    induction tokens with
    | nil => rfl
    | cons token rest ih =>
      have dropped : session.debug 3 ("  " ++ token.text) = session := by
        simp [debug, Machine.debug, low]
      rw [List.foldl_cons, dropped, ih]
  rw [describeTokens]
  split
  case isTrue => rfl
  case isFalse low => exact (quiet _ (by rwa [debug, Machine.debugLevel_debug])).symm

/-- The debug line about a program is the same whether or not the level is looked at before. -/
theorem describeProgram_eq [Host] (session : Session) (program : List Stmt) :
    session.describeProgram program =
      if session.flags.hadError = false then session.debug 2 (Node.renderProgram program)
      else session := by
  rw [describeProgram]
  by_cases told : 2 ≤ session.machine.debugLevel
  · simp only [told, true_and]
  · -- Below the level, the line would be dropped anyway.
    have dropped : session.debug 2 (Node.renderProgram program) = session := by
      simp [debug, Machine.debug, told]
    simp only [told, false_and, dropped, ite_self]

section

variable (retelling : Retelling) (session : Session)

/-- A debug line is told or not, whether before the change or after it. -/
theorem retold_debug (level : Nat) (message : String) :
    (session.debug level message).retold retelling =
      (session.retold retelling).debug level message := by
  rw [retold, debug, Machine.retold_debug]
  rfl

/-- A text is printed before the change or after it. -/
theorem retold_print (text : String) :
    (session.print text).retold retelling = (session.retold retelling).print text := by
  simp [retold, print, Machine.retold, Machine.emit, retelling.printed]

/-- A report is made before the change or after it. -/
theorem retold_notify (notice : Notice) :
    (session.notify notice).retold retelling = (session.retold retelling).notify notice := by
  simp [retold, notify, Machine.retold, Machine.emit, retelling.noticed]

/-- Diagnostics are reported before the change or after it. -/
theorem retold_diagnose (diagnostics : List Diagnostic) :
    (session.diagnose diagnostics).retold retelling =
      (session.retold retelling).diagnose diagnostics := by
  induction diagnostics generalizing session with
  | nil => rfl
  | cons first rest ih =>
    rw [diagnose, diagnose, List.foldl_cons, List.foldl_cons, ← retold_notify]
    exact ih (session.notify first.notice)

/-- The tokens of a text are told about as far as the level goes. -/
theorem retold_describeTokens (tokens : List Token) :
    (session.describeTokens tokens).retold retelling =
      (session.retold retelling).describeTokens tokens := by
  have each (session : Session) :
      (tokens.foldl (fun session token => session.debug 3 ("  " ++ token.text)) session).retold
          retelling =
        tokens.foldl (fun session token => session.debug 3 ("  " ++ token.text))
          (session.retold retelling) := by
    induction tokens generalizing session with
    | nil => rfl
    | cons token rest ih => rw [List.foldl_cons, List.foldl_cons, ih, retold_debug]
  rw [describeTokens_eq, describeTokens_eq, each, retold_debug]

/-- A program is told about as far as the level goes, and only if there was no error. -/
theorem retold_describeProgram [Host] (program : List Stmt) :
    (session.describeProgram program).retold retelling =
      (session.retold retelling).describeProgram program := by
  rw [describeProgram_eq, describeProgram_eq]
  show (if session.flags.hadError = false then _ else _ : Session).retold retelling =
    if session.flags.hadError = false then _ else _
  split
  · exact retold_debug retelling session 2 _
  · rfl

/-- A text is read alike, whatever has been told. -/
theorem parse_retold [Host] (source : String) :
    (session.retold retelling).parse source =
      ((session.parse source).1.retold retelling, (session.parse source).2) := by
  -- Diagnostics and debug lines alternate, and the change can be made before each of them.
  simp only [parse, ← retold_diagnose, ← retold_describeTokens, ← retold_describeProgram]

/-- A runtime error is reported alike, whatever has been told. -/
theorem blame_retold (error : RuntimeError)
    (heard : retelling.KeepsFirst ∨ Unrefused (session.blame error).2) :
    (session.retold retelling).blame error =
      ((session.blame error).1.retold retelling, (session.blame error).2) := by
  unfold blame at heard ⊢
  cases line : error.debugLine with
  | plain message =>
    dsimp only
    rw [← retold_debug, ← retold_notify]
  | garbled text =>
    rw [line] at heard
    dsimp only at heard ⊢
    by_cases told : 1 ≤ session.machine.debugLevel
    · -- The line is refused, so the change must not keep it from being told.
      have still : 1 ≤ (session.retold retelling).machine.debugLevel := by
        rcases heard with keeps | unrefused
        · exact keeps session.machine.debugLevel told
        · exact absurd (by rw [if_pos told]) (unrefused (Glyph.blot text.glyphs))
      rw [if_pos told, if_pos still]
    · have untold : ¬1 ≤ (session.retold retelling).machine.debugLevel := fun still =>
        told (Nat.le_trans still (retelling.level_le session.machine.debugLevel))
      rw [if_neg told, if_neg untold, ← retold_notify]

/-- Statements are interpreted alike, whatever has been told. -/
theorem interpret_retold [Host] (program : List Stmt)
    (heard : retelling.KeepsFirst ∨ Unrefused (session.interpret program).2) :
    (session.retold retelling).interpret program =
      ((session.interpret program).1.retold retelling, (session.interpret program).2) := by
  -- The run itself does the same; what is left is the report of how it ended.
  have ran := Exec.retold_executeAll retelling program session.machine
  rw [interpret] at heard ⊢
  rw [interpret, retold]
  rcases ended : Exec.executeAll program session.machine with ⟨result, after⟩
  rw [ended] at ran heard
  cases result with
  | ok =>
    rw [ran (.inr fun _ => by rintro ⟨⟩)]
    rfl
  | error halt =>
    cases halt with
    | unsupported | nestedTooDeeply =>
      rw [ran (.inr fun _ => by rintro ⟨⟩)]
      rfl
    | failed error =>
      rw [ran (.inr fun _ => by rintro ⟨⟩)]
      exact blame_retold retelling { session with machine := after } error heard
    | unwritable channel blot =>
      have unrefused : retelling.KeepsFirst ∨
          Exec.Unrefused (.error (.unwritable channel blot) : Except Halt Unit) := by
        refine heard.imp_right fun told other refused => told other ?_
        cases refused
        rfl
      rw [ran unrefused]
      rfl

/-- A text is run alike, whatever has been told. -/
theorem run_retold [Host] (source : String)
    (heard : retelling.KeepsFirst ∨ Unrefused (session.run source).2) :
    (session.retold retelling).run source =
      ((session.run source).1.retold retelling, (session.run source).2) := by
  rw [run_eq] at heard ⊢
  rw [run_eq, parse_retold]
  -- Whether there was an error does not depend on what has been told.
  show (if (session.parse source).1.flags.hadError then _ else _) = _
  split
  · rfl
  case isFalse unflagged =>
    rw [if_neg unflagged] at heard
    exact interpret_retold retelling _ _ heard

end

end Session

end LoxLang
