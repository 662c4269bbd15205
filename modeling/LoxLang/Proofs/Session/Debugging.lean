import LoxLang.Proofs.Execution.Hushing
import LoxLang.Proofs.Session.Pieces
import LoxLang.Proofs.Session.Retelling
import LoxLang.Proofs.Tree.Printing

/-!
How much a session tells of itself changes nothing else: the sessions of two levels
differ in debug lines only.
-/

namespace LoxLang

/-- The level and the message of a debug line. -/
def Event.debugLine? : Event → Option (Nat × String)
  | debugged level message => some (level, message)
  | printed _ | noticed _ => none

namespace Session

/-- A session that tells nothing above a level, and has told nothing above it. -/
def hushed (limit : Nat) (session : Session) : Session :=
  { session with machine := session.machine.hushed limit }

/-- A turn of which nothing above a level was told. -/
def Turn.hushed (limit : Nat) (turn : Turn) : Turn :=
  { turn with
    before := turn.before.hushed limit
    after := turn.after.hushed limit
    events := turn.events.filter (Event.isToldAt limit) }

section

variable [Host] (limit : Nat)

end

/-- What can be seen of a turn and of the session after it, debug lines apart. -/
structure Seen where
  output : String
  errors : String
  flags : Flags
  exitCode : Nat
  globals : Bindings
  depth : Nat
  answer : Answer

namespace Turn

/-- What is seen of a turn, debug lines apart. -/
def seen (turn : Turn) : Seen where
  output := Event.output turn.events
  errors := Event.errors turn.events
  flags := turn.after.flags
  exitCode := turn.after.exitCode
  globals := turn.after.globals
  depth := turn.after.depth
  answer := turn.answer

/-- The debug lines of a turn, each with its level. -/
def debugLines (turn : Turn) : List (Nat × String) :=
  turn.events.filterMap Event.debugLine?

end Turn

end Session

end LoxLang
