import LoxLang.Proofs.Session.Telling

/-!
Sessions that serve requests one after the other: what holds after every turn, however it ends.
-/

namespace LoxLang

/-- The flags go up with the reports of their kinds, and stay up. -/
theorem Flags.noteAll_iff (flags : Flags) (told : List Notice) :
    ((flags.noteAll told).hadError = true ↔
      flags.hadError = true ∨ ∃ line place message, Notice.static line place message ∈ told) ∧
    ((flags.noteAll told).hadRuntimeError = true ↔
      flags.hadRuntimeError = true ∨ ∃ line message, Notice.runtime line message ∈ told) := by
  induction told generalizing flags with
  | nil => simp [noteAll]
  | cons first rest ih =>
    -- The first report raises one of the two flags, whatever the others do afterwards.
    rw [noteAll, List.foldl_cons, ← noteAll, (ih _).1, (ih _).2]
    cases first with
    | static line place message =>
      constructor
      · exact ⟨fun _ => .inr ⟨line, place, message, by simp⟩, fun _ => .inl rfl⟩
      · simp [note]
    | runtime line message =>
      constructor
      · simp [note]
      · exact ⟨fun _ => .inr ⟨line, message, by simp⟩, fun _ => .inl rfl⟩

namespace Session

/-- What can be asked of a session: one of its steps, or to run a stored tree that
has been loaded already. -/
inductive Request where
  | step (step : Step)
  | runLoaded (tree : Node)

/-- Does what is asked. -/
def serve [Host] (session : Session) : Request → Session × Answer
  | .step step => session.step step
  | .runLoaded tree =>
    let (ran, failure) := session.runTree tree
    (ran, { failure, code := if failure.isNone then some ran.exitCode else none })

/-- A request that has been served: the session before and after it, what happened
meanwhile, and the answer. -/
structure Turn where
  request : Request
  before : Session
  after : Session
  /-- The first event stands first. -/
  events : List Event
  answer : Answer

/-- Serves a request and collects what happens meanwhile. -/
def turn [Host] (session : Session) (request : Request) : Turn :=
  let (served, answer) := session.drain.1.serve request
  { request, before := session, after := served.drain.1, events := served.drain.2, answer }

/-- Serves requests one after the other. -/
def turns [Host] (session : Session) : List Request → List Turn
  | [] => []
  | first :: rest => session.turn first :: (session.turn first).after.turns rest

/-- The reports that were made since the flags were last cleared. -/
def reportsSinceReset (past : List Turn) : List Notice :=
  past.foldl (fun told turn =>
    match turn.request with
    | .step .reset => []
    | _ => told ++ turn.events.filterMap Event.notice?) []

/-- Whether a turn printed nothing and left the variables as they were. -/
def Turn.Idle (turn : Turn) : Prop :=
  Event.output turn.events = "" ∧ turn.after.globals = turn.before.globals

/-- What holds after a turn, given the turns before it. -/
structure Turn.Orderly (past : List Turn) (turn : Turn) : Prop where
  /-- The outermost scope is current again. -/
  current : turn.after.machine.current = globalScope
  depth : turn.after.depth = 0
  /-- The flags tell what was reported since they were last cleared. -/
  hadError : turn.after.flags.hadError = true ↔
    ∃ line place message, Notice.static line place message ∈ reportsSinceReset (past ++ [turn])
  hadRuntimeError : turn.after.flags.hadRuntimeError = true ↔
    ∃ line message, Notice.runtime line message ∈ reportsSinceReset (past ++ [turn])
  exitCode : turn.after.exitCode =
    if turn.after.flags.hadError then 65 else if turn.after.flags.hadRuntimeError then 70 else 0
  /-- A text that is rejected, or only read, has no effect. -/
  rejected : ∀ source, turn.request = .step (.run source) → turn.after.flags.hadError = true →
    turn.Idle
  onlyRead : ∀ source, turn.request = .step (.parse source) → turn.Idle
  /-- No variable is ever removed. -/
  keeps : ∀ name, turn.before.globals.binds name → turn.after.globals.binds name

/-- Whether a session comes from another by given reports and by runs. -/
structure Advances (told : List Notice) (before after : Session) : Prop where
  current : after.machine.current = before.machine.current
  binds : ∀ scope name, (before.machine.forest.bindingsOf scope).binds name →
    (after.machine.forest.bindingsOf scope).binds name
  notices : after.machine.notices = told.reverse ++ before.machine.notices
  flags : after.flags = before.flags.noteAll told

namespace Advances

variable {first second third : Session}

/-- A session comes from itself. -/
theorem refl (session : Session) : Advances [] session session where
  current := rfl
  binds _ _ bound := bound
  notices := rfl
  flags := rfl

/-- What is reported in turn is reported together. -/
theorem trans {earlier later : List Notice} (advances : Advances earlier first second)
    (further : Advances later second third) : Advances (earlier ++ later) first third where
  current := further.current.trans advances.current
  binds scope name bound := further.binds scope name (advances.binds scope name bound)
  notices := by rw [further.notices, advances.notices, List.reverse_append, List.append_assoc]
  flags := by rw [further.flags, advances.flags, Flags.noteAll_append]

/-- Reports alone change no variable. -/
theorem of_tells {told : List Notice} (tells : Tells told first second) :
    Advances told first second where
  current := tells.current
  binds scope name bound := by rwa [tells.forest]
  notices := tells.notices
  flags := tells.flags

/-- A run alone makes no report. -/
theorem of_leads {session : Session} {after : Machine} (leads : session.machine.Leads after) :
    Advances [] session { session with machine := after } where
  current := leads.current_eq
  binds _ _ bound := leads.binds bound
  notices := leads.notices_eq
  flags := rfl

/-- Blaming a runtime error is one report at most. -/
theorem blame (session : Session) (error : RuntimeError) :
    ∃ told, Advances told session (session.blame error).1 := by
  rcases blame_cases session error with ⟨ended, same, tells⟩ | ⟨_, _, same⟩
  · rw [same]
    exact ⟨_, of_tells tells⟩
  · rw [same]
    exact ⟨[], refl session⟩

/-- Interpreting statements reports a runtime error at most, whatever else may stop them. -/
theorem interpret [Host] (session : Session) (program : List Stmt) :
    ∃ told, Advances told session (session.interpret program).1 := by
  -- The run comes first, and only a runtime error is reported.
  have leads := Exec.leading_executeAll program session.machine
  rw [Session.interpret]
  rcases ran : Exec.executeAll program session.machine with ⟨result, after⟩
  rw [ran] at leads
  cases result with
  | ok => exact ⟨[], of_leads leads⟩
  | error halt =>
    cases halt with
    | failed error =>
      obtain ⟨told, blamed⟩ := blame { session with machine := after } error
      exact ⟨_, (of_leads leads).trans blamed⟩
    | unsupported | nestedTooDeeply | unwritable => exact ⟨[], of_leads leads⟩

/-- Running a text reports what is wrong with it, or else what went wrong in its run. -/
theorem run [Host] (session : Session) (source : String) :
    ∃ told, Advances told session (session.run source).1 := by
  have parsed := of_tells (Tells.parse session source)
  rw [run_eq]
  split
  · exact ⟨_, parsed⟩
  · obtain ⟨told, ran⟩ := interpret (session.parse source).1 (parseSource source)
    exact ⟨_, parsed.trans ran⟩

/-- Running a stored tree reports no more than running its statements. -/
theorem runTree [Host] (session : Session) (tree : Node) :
    ∃ told, Advances told session (session.runTree tree).1 := by
  rw [Session.runTree]
  cases tree.program with
  | ok program => exact interpret session program
  | error failure => exact ⟨[], refl session⟩

/-- Running the tree of a JSON text reports no more than running that tree. -/
theorem runTreeText [Host] (session : Session) (text : String) :
    ∃ told, Advances told session (session.runTreeText text).1 := by
  rw [Session.runTreeText]
  cases loadTree text with
  | ok tree => exact runTree session tree
  | error failure => exact ⟨[], refl session⟩

/-- Every request but to clear the flags only adds reports and runs. -/
theorem serve [Host] (session : Session) {request : Request} (uncleared : request ≠ .step .reset) :
    ∃ told, Advances told session (session.serve request).1 := by
  match request with
  | .step (.run source) => exact run session source
  | .step (.parse source) => exact ⟨_, of_tells (Tells.parse session source)⟩
  | .step (.runTree text) => exact runTreeText session text
  | .step .reset => exact absurd rfl uncleared
  | .step .close => exact ⟨[], ⟨rfl, fun _ _ bound => bound, rfl, rfl⟩⟩
  | .runLoaded tree => exact runTree session tree

end Advances

section

variable [Host] (session : Session) (request : Request)

/-- The reports of a turn are those of the session that served the request, in order. -/
theorem notices_turn :
    (session.turn request).events.filterMap Event.notice? =
      (session.drain.1.serve request).1.machine.notices.reverse :=
  List.filterMap_reverse

/-- A turn ends in the scope it started in. -/
theorem current_turn : (session.turn request).after.machine.current = session.machine.current := by
  by_cases clears : request = .step .reset
  · rw [clears]
    rfl
  · obtain ⟨told, advances⟩ := Advances.serve session.drain.1 clears
    exact advances.current

/-- A turn removes no variable. -/
theorem binds_turn {name : Name} (bound : session.globals.binds name) :
    (session.turn request).after.globals.binds name := by
  by_cases clears : request = .step .reset
  · rw [clears]
    exact bound
  · obtain ⟨told, advances⟩ := Advances.serve session.drain.1 clears
    exact advances.binds globalScope name bound

/-- If the flags tell what was reported before a turn, they tell what was reported after it. -/
theorem flags_turn {past : List Turn}
    (known : session.flags = ({} : Flags).noteAll (reportsSinceReset past)) :
    (session.turn request).after.flags =
      ({} : Flags).noteAll (reportsSinceReset (past ++ [session.turn request])) := by
  by_cases clears : request = .step .reset
  · -- Clearing the flags is what makes the reports start anew.
    rw [clears, reportsSinceReset, List.foldl_append]
    rfl
  · obtain ⟨told, advances⟩ := Advances.serve session.drain.1 clears
    -- The session started the turn without any report, so all of its reports are new.
    have new : (session.turn request).events.filterMap Event.notice? = told := by
      rw [notices_turn, advances.notices]
      simp [drain, Machine.notices]
    have told_since : reportsSinceReset (past ++ [session.turn request]) =
        reportsSinceReset past ++ told := by
      rw [reportsSinceReset, List.foldl_append, List.foldl_cons, List.foldl_nil, new,
        ← reportsSinceReset]
      split
      next same => exact absurd same clears
      next => rfl
    rw [told_since, Flags.noteAll_append, ← known]
    exact advances.flags

/-- A text that is only read has no effect, and so has one that is rejected. -/
theorem idle_of_tells {told : List Notice}
    (tells : Tells told session.drain.1 (session.drain.1.serve request).1) :
    (session.turn request).Idle := by
  constructor
  · -- Nothing was on the output channel when the turn began.
    show Event.output (session.drain.1.serve request).1.drain.2 = ""
    rw [output_drain, tells.texts]
    rfl
  · show (session.drain.1.serve request).1.machine.forest.bindingsOf globalScope = _
    rw [tells.forest]
    rfl

end

/-- A runtime error does not raise the flag of a static one. -/
theorem hadError_blame (session : Session) (error : RuntimeError) :
    (session.blame error).1.flags.hadError = session.flags.hadError := by
  rcases blame_cases session error with ⟨ended, same, tells⟩ | ⟨_, _, same⟩
  · rw [same, tells.flags]
    rfl
  · rw [same]

/-- Interpreting statements never raises the flag of a static error. -/
theorem hadError_interpret [Host] (session : Session) (program : List Stmt) :
    (session.interpret program).1.flags.hadError = session.flags.hadError := by
  rw [interpret]
  rcases Exec.executeAll program session.machine with ⟨result, after⟩
  cases result with
  | ok => rfl
  | error halt =>
    cases halt with
    | unsupported | nestedTooDeeply | unwritable => rfl
    | failed error => exact hadError_blame { session with machine := after } error

/-- If the flag of a static error is up after a text was run, the text was read and no more. -/
theorem tells_run_of_hadError [Host] {session : Session} {source : String}
    (flagged : (session.run source).1.flags.hadError = true) :
    Tells ((sourceDiagnostics source).map (·.notice)) session (session.run source).1 := by
  rw [run_eq] at flagged ⊢
  split
  case isTrue => exact Tells.parse session source
  case isFalse unflagged =>
    -- The text was run without the flag, and the run cannot have raised it.
    rw [if_neg unflagged, hadError_interpret] at flagged
    exact absurd flagged unflagged

/-- A turn is orderly if the session before it stands at the outermost scope and its flags
tell what was reported. -/
theorem orderly_turn [Host] {session : Session} {past : List Turn}
    (outermost : session.machine.current = globalScope)
    (known : session.flags = ({} : Flags).noteAll (reportsSinceReset past)) (request : Request) :
    (session.turn request).Orderly past := by
  have current := (current_turn session request).trans outermost
  have raised := Flags.noteAll_iff {} (reportsSinceReset (past ++ [session.turn request]))
  rw [← flags_turn session request known] at raised
  constructor
  case current => exact current
  case depth =>
    -- Nothing stands around the outermost scope.
    rw [depth, current, Forest.depth]
    cases (session.turn request).after.machine.forest.parentOf? globalScope with
    | some outer => exact absurd outer.2 (Nat.not_lt_zero outer.1)
    | none => rfl
  case hadError => simpa using raised.1
  case hadRuntimeError => simpa using raised.2
  case exitCode => rfl
  case rejected =>
    rintro source (rfl : request = _) flagged
    exact idle_of_tells session _ (tells_run_of_hadError flagged)
  case onlyRead =>
    rintro source (rfl : request = _)
    exact idle_of_tells session _ (Tells.parse session.drain.1 source)
  case keeps => exact fun name bound => binds_turn session request bound

/-- The turns of a session are orderly if the session is, given what came before them. -/
theorem orderly_turns [Host] {session : Session} {earlier past later : List Turn} {turn : Turn}
    {requests : List Request} (outermost : session.machine.current = globalScope)
    (known : session.flags = ({} : Flags).noteAll (reportsSinceReset earlier))
    (served : session.turns requests = past ++ turn :: later) : turn.Orderly (earlier ++ past) := by
  -- Every turn leaves the session as the next one needs it.
  induction requests generalizing session earlier past with
  | nil => simp [turns] at served
  | cons first rest ih =>
    rw [turns] at served
    cases past with
    | nil =>
      obtain ⟨rfl, _⟩ := List.cons.inj served
      rw [List.append_nil]
      exact orderly_turn outermost known first
    | cons head past =>
      obtain ⟨rfl, others⟩ := List.cons.inj served
      have orderly :=
        ih ((current_turn session first).trans outermost) (flags_turn session first known) others
      rwa [List.append_assoc] at orderly

/--
Every turn of a session is orderly.

Whatever has been asked of a new session, after every turn, failed ones included: the outermost
scope is current, the flags and the status tell what was reported since the flags were last
cleared, a text that was rejected or only read had no effect, and no variable was removed.
-/
theorem every_turn_is_orderly [Host] (debugLevel : Nat) (globals : Bindings)
    (requests : List Request) (past later : List Turn) (turn : Turn)
    (served : (start debugLevel globals).turns requests = past ++ turn :: later) :
    turn.Orderly past := by
  -- A new session stands at the outermost scope, and nothing came before its turns.
  have clear : (start debugLevel globals).flags = ({} : Flags).noteAll (reportsSinceReset []) := rfl
  exact orderly_turns rfl clear served

/--
A loaded tree prints a list, and then stops at a loop in a block, which cannot be executed.

The turn is orderly all the same, and so is the one after it.
-/
theorem every_turn_is_orderly_unsupported :
    let tree : Node := .list [.print (.literal (.list [.nil])), .block [.loop .nil .nil]]
    let first := (start 0 []).turn (.runLoaded tree)
    let second := first.after.turn (.step (.run "-nil;"))
    first.events = [.printed "[nil]\n"] ∧ first.answer.failure =
      some (.unsupported (.statement "While")) ∧
      (start 0 []).turns [.runLoaded tree, .step (.run "-nil;")] = [] ++ first :: [second] ∧
      first.Orderly [] ∧ second.Orderly [first] := by
  intro tree first second
  have served : (start 0 []).turns [.runLoaded tree, .step (.run "-nil;")] =
      [] ++ first :: [second] := rfl
  refine ⟨rfl, rfl, served, ?_, ?_⟩
  · exact every_turn_is_orderly 0 [] _ [] [second] first served
  · exact every_turn_is_orderly 0 [] _ [first] [] second served

end Session

end LoxLang
