import LoxLang.Proofs.Execution.Hushing
import LoxLang.Proofs.Session.Likeness
import LoxLang.Proofs.Session.Retelling

/-!
Lines at the prompt: what each of them shows, and that a line with a static error leaves
no trace in the others.
-/

namespace LoxLang

open Reference

/-- Whatever was told before can be put behind what is told now. -/
def Retelling.behind (earlier : List Event) : Retelling where
  level own := own
  events told := told ++ earlier
  level_le own := Nat.le_refl own
  printed _ _ := rfl
  noticed _ _ := rfl
  debugged _ _ _ _ within := (if_pos within).symm

/-- Who tells of itself goes on to do so behind what was told before. -/
theorem Retelling.keepsFirst_behind (earlier : List Event) : (behind earlier).KeepsFirst :=
  fun _ loud => loud

/-- What one line shows on the two channels. -/
structure Reply where
  output : String
  errors : String
deriving DecidableEq, Repr

namespace Session

/-- What a session shows while it runs a line at the prompt. -/
def reply [Host] (session : Session) (line : String) : Reply :=
  let told := (session.drain.1.runLine line).1.drain.2
  { output := Event.output told, errors := Event.errors told }

/-- The session after it ran lines at the prompt. -/
def afterLines [Host] (session : Session) (lines : List String) : Session :=
  lines.foldl (fun session line => (session.runLine line).1) session

/-- What a session shows for each of several lines. -/
def replies [Host] (session : Session) : List String → List Reply
  | [] => []
  | line :: rest => session.reply line :: (session.runLine line).1.replies rest

/-- Where all variables hold values that can be shown, a line is run and the flags
are cleared after it. -/
theorem runLine_eq [Host] {session : Session} (plain : session.machine.forest.Holds (·.isPlain))
    (line : String) :
    session.runLine line = (((session.print promptText).run line).1.reset, none) := by
  -- No text fails, so there is no way past the clearing of the flags.
  have failure := (@run_of_plain _ (session.print promptText) plain line).1
  rw [runLine]
  rcases ran : (session.print promptText).run line with ⟨ended, ending⟩
  rw [ran] at failure
  obtain rfl : ending = none := failure
  rfl

/-- Where all variables hold values that can be shown, they do so after a line. -/
theorem plain_runLine [Host] {session : Session} (plain : session.machine.forest.Holds (·.isPlain))
    (line : String) :
    (session.runLine line).1.machine.forest.Holds (·.isPlain) := by
  rw [runLine_eq plain]
  exact (@run_of_plain _ (session.print promptText) plain line).2

/-- Lines are run to the last, and then the prompt is shown once more. -/
theorem prompt_eq [Host] {session : Session} (plain : session.machine.forest.Holds (·.isPlain))
    (lines : List String) :
    session.prompt lines = (((session.afterLines lines).print promptText).print "\n", none) := by
  induction lines generalizing session with
  | nil => rfl
  | cons line rest ih =>
    -- The next line always has its turn.
    have still := plain_runLine plain line
    rw [runLine_eq plain] at still
    rw [prompt, runLine_eq plain]
    refine (ih still).trans ?_
    rw [afterLines, afterLines, List.foldl_cons, runLine_eq plain]

section

variable (session : Session)

/-- A session is what it has told, put behind a session that has told nothing. -/
theorem retold_drain : session.drain.1.retold (.behind session.machine.events) = session :=
  rfl

/-- A line is run alike, whatever has been told. -/
theorem runLine_retold [Host] (retelling : Retelling) (line : String)
    (heard : retelling.KeepsFirst ∨ Unrefused ((session.print promptText).run line).2) :
    ((session.retold retelling).runLine line).1 = (session.runLine line).1.retold retelling := by
  rw [runLine, runLine, ← retold_print, run_retold retelling _ line heard]
  rcases (session.print promptText).run line with ⟨ended, failure⟩
  cases failure <;> rfl

/-- What a line does is put in front of what has been told. -/
theorem runLine_drain [Host] (line : String) :
    (session.runLine line).1 =
      (session.drain.1.runLine line).1.retold (.behind session.machine.events) := by
  rw [← runLine_retold _ _ _ (.inl (Retelling.keepsFirst_behind _)), retold_drain]

/-- A text is shown behind what was shown before. -/
theorem shown_print (text : String) :
    Event.output (session.print text).drain.2 = Event.output session.drain.2 ++ text ∧
      Event.errors (session.print text).drain.2 = Event.errors session.drain.2 := by
  have told : (session.print text).drain.2 = session.drain.2 ++ [.printed text] := List.reverse_cons
  rw [told, Event.output_eq, Event.output_eq, Event.errors_eq, Event.errors_eq]
  simp [Event.text?, Event.notice?, List.filterMap_cons]

/-- What is told in front of earlier events is shown behind them. -/
theorem shown_behind (earlier : List Event) :
    Event.output (session.retold (.behind earlier)).drain.2 =
        Event.output earlier.reverse ++ Event.output session.drain.2 ∧
      Event.errors (session.retold (.behind earlier)).drain.2 =
        Event.errors earlier.reverse ++ Event.errors session.drain.2 := by
  have told : (session.retold (.behind earlier)).drain.2 = earlier.reverse ++ session.drain.2 :=
    List.reverse_append
  rw [told, Event.output_eq, Event.output_eq, Event.output_eq, Event.errors_eq, Event.errors_eq,
    Event.errors_eq]
  simp [Notice.texts, String.join_append]

/-- After a line, the channels show the reply to it behind what they showed before. -/
theorem shown_runLine [Host] (line : String) :
    Event.output (session.runLine line).1.drain.2 = Event.output session.drain.2 ++
      (session.reply line).output ∧
      Event.errors (session.runLine line).1.drain.2 =
        Event.errors session.drain.2 ++ (session.reply line).errors := by
  rw [runLine_drain]
  exact shown_behind _ _

/-- After lines, the channels show the replies to them in turn. -/
theorem shown_afterLines [Host] (lines : List String) :
    Event.output (session.afterLines lines).drain.2 =
        Event.output session.drain.2 ++ String.join ((session.replies lines).map Reply.output) ∧
      Event.errors (session.afterLines lines).drain.2 =
        Event.errors session.drain.2 ++ String.join ((session.replies lines).map Reply.errors) := by
  induction lines generalizing session with
  | nil => simp [afterLines, replies]
  | cons line rest ih =>
    -- What the other lines show comes behind what the first one does.
    obtain ⟨output, errors⟩ := ih (session.runLine line).1
    obtain ⟨first, firstErrors⟩ := session.shown_runLine line
    rw [first] at output
    rw [firstErrors] at errors
    rw [replies, List.map_cons, List.map_cons, String.join_cons, String.join_cons,
      ← String.append_assoc, ← String.append_assoc]
    exact ⟨output, errors⟩

/-- Lines in a row are run in turn. -/
theorem afterLines_append [Host] (lines others : List String) :
    session.afterLines (lines ++ others) = (session.afterLines lines).afterLines others :=
  List.foldl_append

/-- Lines in a row are replied to in turn. -/
theorem replies_append [Host] (lines others : List String) :
    session.replies (lines ++ others) =
      session.replies lines ++ (session.afterLines lines).replies others := by
  induction lines generalizing session with
  | nil => rfl
  | cons line rest ih =>
    rw [List.cons_append, replies, replies, List.cons_append, ih]
    rfl

end

section

variable {session other : Session} (same : session.drain.1 = other.drain.1)

include same

/-- Sessions that differ in what they have told differ in nothing else after a line. -/
theorem drain_runLine [Host] (line : String) :
    (session.runLine line).1.drain.1 = (other.runLine line).1.drain.1 := by
  -- Both come from one session, with different events put behind what it tells.
  rw [runLine_drain session, runLine_drain other, same]
  rfl

/-- Sessions that differ in what they have told give the same replies. -/
theorem replies_of_drain [Host] (lines : List String) :
    session.replies lines = other.replies lines := by
  induction lines generalizing session other with
  | nil => rfl
  | cons line rest ih => rw [replies, replies, reply, reply, same, ih (drain_runLine same line)]

/-- Sessions that differ in what they have told have the same variables after lines. -/
theorem globals_of_drain [Host] (lines : List String) :
    (session.afterLines lines).globals = (other.afterLines lines).globals := by
  induction lines generalizing session other with
  | nil =>
    show session.drain.1.globals = other.drain.1.globals
    rw [same]
  | cons line rest ih => exact ih (drain_runLine same line)

end

/-- Sessions differ in what they have told if all else is the same. -/
theorem drain_eq {session other : Session} (forest : session.machine.forest = other.machine.forest)
    (current : session.machine.current = other.machine.current)
    (level : session.machine.debugLevel = other.machine.debugLevel)
    (flags : session.flags = other.flags) :
    session.drain.1 = other.drain.1 := by
  simp [drain, forest, current, level, flags]

/--
A session between two lines at the prompt.

It is in the outermost scope, its flags are clear, and all its variables hold values
that can be shown.
-/
structure AtPrompt (session : Session) : Prop where
  inside : session.machine.current < session.machine.forest.size
  outermost : session.machine.current = globalScope
  clear : session.flags = {}
  plain : session.machine.forest.Holds (·.isPlain)

/-- A new session can start at the prompt. -/
theorem atPrompt_start (level : Nat) {globals : Bindings}
    (plain : ∀ binding ∈ globals, binding.2.isPlain) :
    AtPrompt (start level globals) :=
  ⟨Nat.one_pos, rfl, rfl, .root plain⟩

/-- Sessions that are alike run a line alike, where all variables hold values that can be shown. -/
theorem Alike.runLine [Host] {session other : Session} (same : Alike (· = ·) session other)
    (plain : session.machine.forest.Holds (·.isPlain))
    (otherPlain : other.machine.forest.Holds (·.isPlain)) (line : String) :
    Alike (· = ·) (session.runLine line).1 (other.runLine line).1 := by
  have texts : (other.print promptText).machine.texts = (session.print promptText).machine.texts :=
    congrArg (List.cons promptText) same.machine.texts
  have printed : Alike (· = ·) (session.print promptText) (other.print promptText) :=
    ⟨⟨same.machine.inside, same.machine.otherInside, same.machine.level, texts, same.machine.seen⟩,
      same.notices, same.flags⟩
  have ran := (printed.run .eq line).1
  rw [runLine_eq plain, runLine_eq otherPlain]
  exact ⟨ran.machine, ran.notices, rfl⟩

/-- A session that tells nothing of itself, and has told nothing. -/
def silenced (session : Session) : Session :=
  session.retold (.hushing 0)

namespace AtPrompt

variable {session other : Session}

/-- What was told does not matter at the prompt. -/
theorem drained (ready : AtPrompt session) : AtPrompt session.drain.1 :=
  ⟨ready.inside, ready.outermost, ready.clear, ready.plain⟩

/-- How much is told does not matter at the prompt. -/
theorem silenced (ready : AtPrompt session) : AtPrompt session.silenced :=
  ⟨ready.inside, ready.outermost, ready.clear, ready.plain⟩

/-- At the prompt, sessions of one level with the same variables are alike, what
they have told apart. -/
theorem alike (ready : AtPrompt session) (otherReady : AtPrompt other)
    (level : other.machine.debugLevel = session.machine.debugLevel)
    (same : session.globals.toEnv = other.globals.toEnv) :
    Alike (· = ·) session.drain.1 other.drain.1 := by
  refine ⟨⟨ready.inside, otherReady.inside, level, rfl, ?_⟩, rfl,
    otherReady.clear.trans ready.clear.symm⟩
  have seen := stack_of_outermost ready.outermost
  have otherSeen := stack_of_outermost otherReady.outermost
  rw [same, ← otherSeen] at seen
  rw [match_eq]
  exact seen

/-- A line leads back to the prompt, with an error on it or without. -/
theorem runLine [Host] (ready : AtPrompt session) (line : String) :
    AtPrompt (session.runLine line).1 := by
  constructor
  · -- No scope is removed, as sessions that are alike stay inside theirs.
    rw [runLine_drain]
    exact ((ready.alike ready rfl rfl).runLine ready.plain ready.plain line).machine.inside
  · rw [runLine_eq ready.plain]
    exact (current_run (session.print promptText) line).trans ready.outermost
  · rw [runLine_eq ready.plain]
    rfl
  · exact plain_runLine ready.plain line

/-- Lines lead back to the prompt. -/
theorem afterLines [Host] (ready : AtPrompt session) (lines : List String) :
    AtPrompt (session.afterLines lines) := by
  induction lines generalizing session with
  | nil => exact ready
  | cons line rest ih => exact ih (ready.runLine line)

/-- A line is run alike where nothing is told. -/
theorem runLine_silenced [Host] (ready : AtPrompt session) (line : String) :
    (session.silenced.drain.1.runLine line).1 = (session.drain.1.runLine line).1.silenced := by
  refine runLine_retold session.drain.1 (.hushing 0) line (.inr fun blot => ?_)
  rw [(@run_of_plain _ (session.drain.1.print promptText) ready.plain line).1]
  rintro ⟨⟩

/-- A line is replied to alike where nothing is told. -/
theorem reply_silenced [Host] (ready : AtPrompt session) (line : String) :
    session.silenced.reply line = session.reply line := by
  have told (ended : Session) : ended.silenced.drain.2 =
      ended.drain.2.filter (Event.isToldAt 0) := by
    show (List.filter _ _).reverse = List.filter _ (List.reverse _)
    rw [List.filter_reverse]
  -- Debug lines are on neither of the two channels.
  rw [reply, reply, ready.runLine_silenced, told, Event.output_eq, Event.output_eq, Event.errors_eq,
    Event.errors_eq, Event.filterMap_isToldAt fun _ _ =>
    rfl, Event.filterMap_isToldAt fun _ _ => rfl]

/-- A line is replied to by the variables alone, and so are the variables after it. -/
theorem reply_eq [Host] (ready : AtPrompt session) (otherReady : AtPrompt other)
    (same : session.globals.toEnv = other.globals.toEnv) (line : String) :
    session.reply line = other.reply line ∧
      (session.runLine line).1.globals.toEnv = (other.runLine line).1.globals.toEnv := by
  -- The two may tell more or less of themselves, so both are compared where they tell nothing.
  have level : other.silenced.machine.debugLevel = session.silenced.machine.debugLevel :=
    (Nat.zero_min _).trans (Nat.zero_min _).symm
  have alike := (ready.silenced.alike otherReady.silenced level same).runLine
    ready.plain otherReady.plain line
  constructor
  · obtain ⟨output, errors⟩ := alike.shown
    rw [← ready.reply_silenced, ← otherReady.reply_silenced, reply, reply, output, errors]
  · have silent {session : Session} (ready : AtPrompt session) :
        (session.runLine line).1.globals = (session.silenced.drain.1.runLine line).1.globals := by
      rw [ready.runLine_silenced line, runLine_drain]
      rfl
    rw [silent ready, silent otherReady]
    have matched := alike.globals (ready.silenced.drained.runLine line).outermost
      (otherReady.silenced.drained.runLine line).outermost
    exact (Env.matches_eq_iff _ _).mp matched

/-- A line with a static error shows the prompt and its diagnostics, and changes nothing else. -/
theorem runLine_of_rejected [Host] (ready : AtPrompt session) {line : String}
    (rejected : sourceDiagnostics line ≠ []) :
    (session.runLine line).1.drain.1 = session.drain.1 ∧
      session.reply line =
        { output := promptText,
          errors := Notice.texts ((sourceDiagnostics line).map (·.notice)) } := by
  -- The line is read and no more, from the session as it is or without what it has told.
  have ran (session : Session) : (session.runLine line).1 =
      ((session.print promptText).parse line).1.reset := by
    rw [Session.runLine, run_eq, flags_parse]
    simp [rejected]
  have told (session : Session) := Tells.parse (session.print promptText) line
  constructor
  · rw [ran]
    exact drain_eq (told session).forest (told session).current (told session).debugLevel
      ready.clear.symm
  · have texts : ((session.drain.1.print promptText).parse line).1.reset.machine.texts =
        [promptText] :=
      (told session.drain.1).texts
    have notices : ((session.drain.1.print promptText).parse line).1.reset.machine.notices =
        ((sourceDiagnostics line).map (·.notice)).reverse :=
      (told session.drain.1).notices.trans (List.append_nil _)
    rw [reply, ran, output_drain, errors_drain, texts, notices, List.reverse_reverse]
    rfl

end AtPrompt

/--
A line with a static error is no more than its report.

The session starts from variables that hold values which can be shown, as those of source texts
all do. Lines at its prompt are all run, and the channels show the replies to them in turn.
Without a line that has a static error, the other lines have the same replies and lead to the
same variables. The reply to such a line is the prompt, and the diagnostics of the line. The
reply to any line, and the variables after it, depend on the line and on the variables before it
only, however these came about, and whatever errors there were on the way.
-/
theorem rejected_lines_leave_no_trace [Host] (debugLevel : Nat) (globals : Bindings)
    (plain : ∀ binding ∈ globals, binding.2.isPlain) :
    let session := start debugLevel globals
    (∀ lines, ∃ ended, session.prompt lines = (ended, none) ∧
      ended.globals = (session.afterLines lines).globals ∧
      Event.output ended.drain.2 = String.join ((session.replies lines).map Reply.output) ++
        (promptText ++ "\n") ∧
      Event.errors ended.drain.2 = String.join ((session.replies lines).map Reply.errors)) ∧
    (∀ lines line others, sourceDiagnostics line ≠ [] →
      session.replies (lines ++ line :: others) =
        session.replies lines ++
          { output := promptText,
            errors := Notice.texts ((sourceDiagnostics line).map (·.notice)) } ::
            (session.afterLines lines).replies others ∧
      session.replies (lines ++ others) =
        session.replies lines ++ (session.afterLines lines).replies others ∧
      (session.afterLines (lines ++ line :: others)).globals =
        (session.afterLines (lines ++ others)).globals) ∧
    ∀ lines otherLevel otherGlobals otherLines line,
      let other := start otherLevel otherGlobals
      (∀ binding ∈ otherGlobals, binding.2.isPlain) →
      (session.afterLines lines).globals.toEnv = (other.afterLines otherLines).globals.toEnv →
      (session.afterLines lines).reply line = (other.afterLines otherLines).reply line ∧
        (session.afterLines (lines ++ [line])).globals.toEnv =
          (other.afterLines (otherLines ++ [line])).globals.toEnv := by
  intro session
  have ready := atPrompt_start debugLevel plain
  refine ⟨?_, ?_, ?_⟩
  · -- Behind the replies, the prompt is shown for a line that does not come.
    intro lines
    obtain ⟨output, errors⟩ := session.shown_afterLines lines
    refine ⟨_, prompt_eq ready.plain lines, rfl, ?_, ?_⟩
    · rw [(shown_print ..).1, (shown_print ..).1, output, String.append_assoc]
      rfl
    · rw [(shown_print ..).2, (shown_print ..).2, errors]
      rfl
  · -- The other lines are run by sessions that differ in what they have told only.
    intro lines line others rejected
    obtain ⟨same, reply⟩ := (ready.afterLines lines).runLine_of_rejected rejected
    refine ⟨?_, replies_append .., ?_⟩
    · rw [replies_append, replies, reply, replies_of_drain same]
    · rw [afterLines_append, afterLines_append]
      exact globals_of_drain same others
  · intro lines otherLevel otherGlobals otherLines line other otherPlain same
    have otherReady := (atPrompt_start otherLevel otherPlain).afterLines otherLines
    rw [afterLines_append, afterLines_append]
    exact (ready.afterLines lines).reply_eq otherReady same line

set_option maxRecDepth 20000 in
/-- A line that breaks off shows the prompt and one report, and the next line is run
as if it were the first. -/
theorem rejected_lines_leave_no_trace_unfinished :
    let globals : Bindings := [(.word "a", .string "x")]
    (∀ binding ∈ globals, binding.2.isPlain) ∧ sourceDiagnostics "print" ≠ [] ∧
      (∃ ended, (start 0 globals).prompt ["print", "print a;"] = (ended, none) ∧
        Event.output ended.drain.2 = "> > x\n> \n" ∧
        Event.errors ended.drain.2 = "[line 1] Error at end: Expect expression.\n") ∧
      ((start 0 globals).afterLines ["print"]).reply "print a;" =
        (start 1 globals).reply "print a;" := by
  intro globals
  have plain : ∀ binding ∈ globals, binding.2.isPlain := by
    intro binding member
    rw [List.mem_singleton.mp member]
    rfl
  -- What each of the two lines does on its own.
  have diagnosed : sourceDiagnostics "print" =
      [{ line := .ofNat 1, place := .atEnd, fault := .missingExpression }] := by decide +kernel
  have reported : Notice.texts ((sourceDiagnostics "print").map (·.notice)) =
      "[line 1] Error at end: Expect expression.\n" := by decide +kernel
  have shown : (start 0 globals).reply "print a;" = { output := "> x\n", errors := "" } := by
    decide +kernel
  have rejected : sourceDiagnostics "print" ≠ [] := by simp [diagnosed]
  -- In a session the first line leaves nothing behind but its report.
  obtain ⟨prompts, deletes, depends⟩ := rejected_lines_leave_no_trace 0 globals plain
  obtain ⟨ended, ran, _, output, errors⟩ := prompts ["print", "print a;"]
  obtain ⟨replies, _, _⟩ := deletes [] "print" ["print a;"] rejected
  obtain ⟨_, _, final⟩ := deletes [] "print" [] rejected
  have next := depends ["print"] 1 globals [] "print a;" plain (congrArg Bindings.toEnv final)
  have both : (start 0 globals).replies ["print", "print a;"] =
      [{ output := "> ", errors := "[line 1] Error at end: Expect expression.\n" },
        { output := "> x\n", errors := "" }] := by
    rw [← shown, ← reported]
    exact replies
  rw [both] at output errors
  exact ⟨plain, rejected, ⟨ended, ran, output, errors⟩, next.1⟩

end Session

end LoxLang
