import LoxLang.Proofs.Execution.Mirroring
import LoxLang.Proofs.Session.Pieces
import LoxLang.Proofs.Session.Turns

/-!
Sessions side by side.

Those that see values which can take each other's place tell the same of a text, and
see such values again.
-/

namespace LoxLang

open Reference

/-- Nothing stands around the outermost scope. -/
theorem Forest.parentOf?_globalScope (forest : Forest) : forest.parentOf? globalScope = none := by
  cases around : forest.parentOf? globalScope with
  | none => rfl
  | some outer => exact absurd outer.2 (Nat.not_lt_zero _)

namespace Session

/-- In the outermost scope, only the variables of that scope are seen. -/
theorem stack_of_outermost {session : Session} (outermost : session.machine.current = globalScope) :
    session.machine.stack = [session.globals.toEnv] := by
  rw [Machine.stack, outermost]
  exact Forest.stack_of_no_parent (Forest.parentOf?_globalScope _)

/-- Whether two sessions see values that are alike, printed and reported the same,
and have the same flags. -/
structure Alike (alike : Value → Value → Prop) (session other : Session) : Prop where
  machine : Machine.Alike (Match alike) session.machine other.machine
  notices : other.machine.notices = session.machine.notices
  flags : other.flags = session.flags

/-- New sessions of one level are alike if their variables match. -/
theorem alike_start {alike : Value → Value → Prop} {globals others : Bindings}
    (matched : Env.Matches alike globals.toEnv others.toEnv) (level : Nat) :
    Alike alike (start level globals) (start level others) := by
  refine ⟨⟨Nat.one_pos, Nat.one_pos, rfl, rfl, ?_⟩, rfl, rfl⟩
  rw [stack_of_outermost rfl, stack_of_outermost rfl]
  exact .cons matched .nil

namespace Alike

variable {alike : Value → Value → Prop} {session other : Session} (same : Alike alike session other)

include same

/-- Sessions that are alike are so after the same reports. -/
theorem tells {after otherAfter : Session} {told : List Notice} (tells : Tells told session after)
    (otherTells : Tells told other otherAfter) : Alike alike after otherAfter := by
  -- Reports change no variable and print nothing, and both sessions get the same ones.
  refine ⟨⟨?_, ?_, ?_, ?_, ?_⟩, ?_, ?_⟩
  · rw [tells.current, tells.forest]
    exact same.machine.inside
  · rw [otherTells.current, otherTells.forest]
    exact same.machine.otherInside
  · rw [tells.debugLevel, otherTells.debugLevel, same.machine.level]
  · rw [tells.texts, otherTells.texts, same.machine.texts]
  · rw [Machine.stack, Machine.stack, tells.current, tells.forest, otherTells.current,
      otherTells.forest]
    exact same.machine.seen
  · rw [tells.notices, otherTells.notices, same.notices]
  · rw [tells.flags, otherTells.flags, same.flags]

/-- Sessions that are alike report alike that a fault was blamed on a line. -/
theorem blame {error otherError : RuntimeError} (faults : otherError.fault = error.fault)
    (lines : otherError.line = error.line) :
    Alike alike (session.blame error).1 (other.blame otherError).1 ∧
      (other.blame otherError).2.isNone = (session.blame error).2.isNone := by
  have notices : otherError.notice = error.notice := by
    rw [RuntimeError.notice, RuntimeError.notice, faults, lines]
  have debugLines : otherError.debugLine = error.debugLine := by
    rw [RuntimeError.debugLine, RuntimeError.debugLine, faults, lines]
  -- Both sessions tell the line, or both have it refused.
  rw [Session.blame, Session.blame, debugLines, notices]
  cases error.debugLine with
  | plain message =>
    have reported := (Tells.debug session 1 message).trans (.notify _ error.notice)
    exact ⟨same.tells reported ((Tells.debug other 1 message).trans (.notify _ error.notice)), rfl⟩
  | garbled text =>
    dsimp only
    rw [same.machine.level]
    split
    · exact ⟨same, rfl⟩
    · exact ⟨same.tells (.notify session error.notice) (.notify other error.notice), rfl⟩

/-- Sessions that are alike read a text alike. -/
theorem parse [Host] (source : String) :
    Alike alike (session.parse source).1 (other.parse source).1 :=
  same.tells (.parse session source) (.parse other source)

section

variable [Host] (interchangeable : Exec.Interchangeable alike)

include interchangeable

/-- Sessions that are alike are so after the same statements, and fail only together. -/
theorem interpret (program : List Stmt) :
    Alike alike (session.interpret program).1 (other.interpret program).1 ∧
      (other.interpret program).2.isNone = (session.interpret program).2.isNone := by
  -- The runs mirror each other, and reports are left to the sessions.
  obtain ⟨machines, agree⟩ := Exec.mirrors_executeAll_self interchangeable program _ _ same.machine
  have quiet := (Exec.leading_executeAll program session.machine).notices_eq
  have otherQuiet := (Exec.leading_executeAll program other.machine).notices_eq
  rw [Session.interpret, Session.interpret]
  rcases ran : Exec.executeAll program session.machine with ⟨result, after⟩
  rcases otherRan : Exec.executeAll program other.machine with ⟨otherResult, otherAfter⟩
  rw [ran, otherRan] at machines agree
  rw [ran] at quiet
  rw [otherRan] at otherQuiet
  have sameAfter : Alike alike { session with machine := after }
      { other with machine := otherAfter } :=
    ⟨machines, by rw [otherQuiet, quiet, same.notices], same.flags⟩
  cases agree with
  | ok => exact ⟨sameAfter, rfl⟩
  | @error halt _ halts =>
    cases halts with
    | failed faults lines => exact sameAfter.blame faults lines
    | refused => exact ⟨sameAfter, rfl⟩
    | refl =>
      cases halt with
      | failed error => exact sameAfter.blame rfl rfl
      | unsupported | nestedTooDeeply | unwritable => exact ⟨sameAfter, rfl⟩

/-- Sessions that are alike run a text alike, and fail only together. -/
theorem run (source : String) :
    Alike alike (session.run source).1 (other.run source).1 ∧
      (other.run source).2.isNone = (session.run source).2.isNone := by
  -- The same diagnostics raise the same flag, so both texts are run or neither is.
  have parsed := same.parse source
  rw [run_eq, run_eq, parsed.flags]
  split
  · exact ⟨parsed, rfl⟩
  · exact parsed.interpret interchangeable (parseSource source)

end

/-- In the outermost scope, sessions that are alike have variables that match. -/
theorem globals (outermost : session.machine.current = globalScope)
    (otherOutermost : other.machine.current = globalScope) :
    Env.Matches alike session.globals.toEnv other.globals.toEnv := by
  -- All that is seen from there is the outermost scope.
  have seen := same.machine.seen
  rw [stack_of_outermost outermost, stack_of_outermost otherOutermost] at seen
  exact (List.forall₂_cons.mp seen).1

/-- Sessions that are alike show the same on their channels. -/
theorem shown :
    Event.output other.drain.2 = Event.output session.drain.2 ∧
      Event.errors other.drain.2 = Event.errors session.drain.2 := by
  rw [output_drain, output_drain, errors_drain, errors_drain, same.machine.texts, same.notices]
  exact ⟨rfl, rfl⟩

end Alike

/-- A text is run in the scope that a session is in, and leaves it there. -/
theorem current_run [Host] (session : Session) (source : String) :
    (session.run source).1.machine.current = session.machine.current := by
  obtain ⟨told, advances⟩ := Advances.run session source
  exact advances.current

end Session

end LoxLang
