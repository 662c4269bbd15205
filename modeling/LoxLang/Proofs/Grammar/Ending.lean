import LoxLang.Proofs.Grammar.Barrier

/-!
Parsing stays before the end token: declarations make progress, and recovery never runs past it.
-/

namespace LoxLang.Parse

variable {α β : Type} {barrier : Kind}

/-- A step that, away from a token of a kind, takes at least one token if it has a result. -/
def Takes (barrier : Kind) (step : Parse α) : Prop :=
  ∀ tokens last tail, Without barrier tokens → last.kind = barrier → tokens ≠ [] →
    ∀ value rest reports, step (tokens ++ last :: tail) = { result := .ok value, rest, reports } →
      rest.length < (tokens ++ last :: tail).length

namespace Takes

/-- A step that takes a token does so behind any other step. -/
theorem bind {step : Parse α} {next : α → Parse β} (first : StaysBefore barrier step)
    (second : ∀ value, Takes barrier (next value))
    (stays : ∀ value, StaysBefore barrier (next value)) :
    Takes barrier (step >>= next) := by
  intro tokens last tail free closed nonempty value rest reports read
  obtain ⟨seen, _, suffix, taken⟩ := first tokens last free closed
  rcases seen with ⟨result, between, seenReports⟩
  have shorter : between.length ≤ tokens.length := suffix.length_le
  cases result with
  | error stop =>
    rw [bind_eq_of_error (taken tail), Parsed.mk.injEq] at read
    simp at read
  | ok middle =>
    rw [bind_eq_of_ok (taken tail)] at read
    by_cases stuck : between = []
    · -- Everything before the last token is gone already, and nothing gives it back.
      subst stuck
      obtain ⟨seen', _, suffix', taken'⟩ := stays middle [] last (by simp [Without]) closed
      have kept := taken' tail
      rw [List.suffix_nil.mp suffix'] at kept
      rw [List.nil_append] at kept read
      rw [kept, Parsed.mk.injEq] at read
      have positive := List.length_pos_iff.mpr nonempty
      simp only [← read.2.1, List.length_append, List.length_cons]
      omega
    · rcases followed : next middle (between ++ last :: tail) with ⟨result', rest', reports'⟩
      rw [followed, Parsed.mk.injEq] at read
      obtain ⟨rfl, rfl, _⟩ := read
      have later :=
        second middle between last tail (free.of_suffix suffix) closed stuck _ _ _ followed
      simp only [List.length_append, List.length_cons] at later ⊢
      omega

/-- An expected token is taken. -/
theorem expect {kind : Kind} (fault : Fault) : Takes barrier (Parse.expect kind fault) := by
  -- A token of another kind would be refused, and there would be no result.
  intro tokens last tail _ _ nonempty value rest reports read
  obtain ⟨token, later, rfl⟩ := List.exists_cons_of_ne_nil nonempty
  rw [List.cons_append, expect_cons] at read
  split at read
  · simp only [Parsed.mk.injEq] at read
    simp [← read.2.1]
  · simp at read

/-- What is made of a result takes nothing back. -/
theorem andReturn {step : Parse α} (takes : Takes barrier step) (result : α → β) :
    Takes barrier (step >>= fun value => Pure.pure (result value)) := by
  intro tokens last tail free closed nonempty value rest reports read
  rcases tried : step (tokens ++ last :: tail) with ⟨outcome, after, reports'⟩
  cases outcome with
  | error stop =>
    rw [bind_eq_of_error tried, Parsed.mk.injEq] at read
    simp at read
  | ok found =>
    rw [bind_eq_of_ok tried, Parsed.mk.injEq] at read
    exact read.2.1 ▸ takes tokens last tail free closed nonempty _ _ _ tried

end Takes

/-- An expression and the semicolon behind it stay before the end token. -/
theorem StaysBefore.finished {next : Expr → Stmt} (room : Nat) (fault : Fault) :
    StaysBefore .eof
      (Parse.assignment room >>= fun e => Parse.expect .semicolon fault >>= fun _ =>
        Pure.pure (next e)) :=
  (StaysBefore.assignment rfl room).bind fun _ =>
    (StaysBefore.expect (by decide) fault).bind fun _ => .pure _

/-- What follows the word that declares a variable stays before the end token. -/
theorem StaysBefore.variableDeclaration (room : Nat) :
    StaysBefore .eof (Parse.variableDeclaration room) := by
  refine (StaysBefore.expect (by decide) _).bind fun name =>
    (StaysBefore.accept? rfl).bind fun found => ?_
  cases found with
  | none => exact (StaysBefore.expect (by decide) _).bind fun _ => .pure _
  | some equals => exact StaysBefore.finished _ _

/-- A declaration by its first token. -/
theorem declarationOver_cons (room : Nat) (item : Parse (Option Stmt)) (token : Token)
    (later : List Token) :
    declarationOver room item (token :: later) =
      if token.kind = .kwVar then variableDeclaration room later
      else if token.kind = .kwPrint then printStatement room later
      else if token.kind =
        .leftBrace then (blockBody item >>= fun body => Pure.pure (Stmt.block body)) later
      else expressionStatement room (token :: later) := by
  -- Each of the three looks at the same token, as those before it have left it in place.
  have looked (kind : Kind) : Reads (accept? (· == kind)) (token :: later)
      (if token.kind = kind then some token else none)
        (if token.kind = kind then later else token :: later) := by
    rw [Reads, accept?_cons]
    by_cases fits : token.kind = kind <;> simp [fits]
  rw [declarationOver, (looked .kwVar).bind_eq]
  by_cases declares : token.kind = .kwVar
  · simp [declares]
  · simp only [declares, if_false]
    rw [(looked .kwPrint).bind_eq]
    by_cases prints : token.kind = .kwPrint
    · simp [prints]
    · simp only [prints, if_false]
      rw [(looked .leftBrace).bind_eq]
      by_cases opens : token.kind = .leftBrace <;> simp [opens]

/-- Skipping stays before the end token. -/
theorem skipFrom_before_end {last : Token} (closed : last.kind = .eof) (previous : Kind)
    (tokens : List Token) :
    ∃ rest, rest <:+ tokens ∧ ∀ tail, skipFrom previous (tokens ++ last :: tail) =
      some (rest ++ last :: tail) := by
  -- The induction is on the tokens before the end token; skipping stops there at the latest.
  induction tokens generalizing previous with
  | nil => exact ⟨[], List.suffix_rfl, fun tail => by simp [skipFrom, closed]⟩
  | cons token later ih =>
    by_cases stops : token.kind = .eof ∨ previous = .semicolon ∨ token.kind.startsStatement
    · exact ⟨token :: later, List.suffix_rfl,
        fun tail => by rw [List.cons_append, skipFrom, if_pos stops]⟩
    · obtain ⟨rest, suffix, skipped⟩ := ih token.kind
      refine ⟨rest, suffix.trans (List.suffix_cons ..), fun tail => ?_⟩
      rw [List.cons_append, skipFrom, if_neg stops, skipped]

/-- Reading goes on before the end token, and past the token at fault. -/
theorem resume_before_end {last : Token} (closed : last.kind = .eof) {tokens : List Token}
    (free : Without .eof tokens) :
    ∃ rest, rest <:+ tokens.tail ∧ ∀ tail, resume (tokens ++ last :: tail) =
      some (rest ++ last :: tail) := by
  cases tokens with
  | nil => exact ⟨[], List.suffix_rfl, fun tail => by simp [resume, closed]⟩
  | cons token later =>
    obtain ⟨rest, suffix, skipped⟩ := skipFrom_before_end closed token.kind later
    refine ⟨rest, suffix, fun tail => ?_⟩
    rw [List.cons_append, resume, if_neg (free token (by simp)), skipped]

/-- A step that goes on, before the end token and past the token it starts at; if it lacks
room, it may stop instead. -/
def Proceeds (lacking : Prop) (item : Parse (Option α)) : Prop :=
  ∀ tokens last, Without .eof tokens → last.kind = .eof →
    ∃ seen : Parsed (Option α),
      ((∃ found, seen.result = .ok found) ∧ seen.rest <:+ tokens.tail ∨
        lacking ∧ seen.result = .error .nestedTooDeeply ∧ seen.rest <:+ tokens) ∧
      ∀ tail, item (tokens ++ last :: tail) = { seen with rest := seen.rest ++ last :: tail }

/-- Mistakes are skipped over, so a step that stays before the end token always goes on. -/
theorem Proceeds.recovering {step : Parse α} (stays : StaysBefore .eof step)
    (takes : Takes .eof step) (lacking : Prop) : Proceeds lacking (Parse.recovering step) := by
  intro tokens last free closed
  obtain ⟨seen, orderly, suffix, taken⟩ := stays tokens last free closed
  rcases seen with ⟨result, rest, reports⟩
  have suffix : rest <:+ tokens := suffix
  -- Wherever the step stopped, reading goes on past the first token.
  obtain ⟨after, suffix', resumed⟩ := resume_before_end closed (free.of_suffix suffix)
  have past : after <:+ tokens.tail := by
    refine suffix'.trans ?_
    cases tokens with
    | nil => simp [List.suffix_nil.mp suffix]
    | cons token later =>
      rcases List.suffix_cons_iff.mp suffix with rfl | deeper
      · exact List.suffix_rfl
      · exact (List.tail_suffix rest).trans deeper
  match result with
  | .ok value =>
    refine ⟨{ result := .ok (some value), rest, reports }, .inl ⟨⟨_, rfl⟩, ?_⟩, fun tail => by
      simp [Parse.recovering, taken]⟩
    -- A result without a token taken is ruled out, and so is an endless loop over it.
    cases tokens with
    | nil => simpa using suffix
    | cons token later =>
      rcases List.suffix_cons_iff.mp suffix with rfl | deeper
      · exact absurd (takes _ last [] free closed (by simp) _ _ _ (taken [])) (by simp)
      · exact deeper
  | .error .refused =>
    exact ⟨{ result := .ok none, rest := after, reports }, .inl ⟨⟨_, rfl⟩, past⟩, fun tail => by
      simp [Parse.recovering, taken, recovered, resumed]⟩
  | .error .nestedTooDeeply =>
    -- The report names the token that was reached, which may be the end token itself.
    cases rest with
    | nil =>
      refine
        ⟨{ result := .ok none, rest := after
           reports := reports ++ [.atToken last .nestedTooDeeply] },
          .inl ⟨⟨_, rfl⟩, past⟩, fun tail => ?_⟩
      have here := resumed tail
      simp only [List.nil_append] at here
      simp [Parse.recovering, taken, recovered, here]
    | cons reached later =>
      refine
        ⟨{ result := .ok none, rest := after
           reports := reports ++ [.atToken reached .nestedTooDeeply] },
          .inl ⟨⟨_, rfl⟩, past⟩, fun tail => ?_⟩
      have here := resumed tail
      simp only [List.cons_append] at here
      simp [Parse.recovering, taken, recovered, here]
  | .error .unended =>
    -- The end token is always there to be looked at.
    exact absurd rfl orderly.1
  | .error .outOfRounds => exact absurd rfl orderly.2.1

/-- A step that goes on, or lacks room to, stays before the end token. -/
theorem Proceeds.staysBefore {lacking : Prop} {item : Parse (Option α)}
    (proceeds : Proceeds lacking item) :
    StaysBefore .eof item := by
  intro tokens last free closed
  obtain ⟨seen, ⟨⟨found, ok⟩, suffix⟩ | ⟨_, deep, suffix⟩, taken⟩ :=
    proceeds tokens last free closed
  · exact ⟨seen, by simp [Parsed.IsOrderly, ok], suffix.trans (List.tail_suffix _), taken⟩
  · exact ⟨seen, by simp [Parsed.IsOrderly, deep], suffix, taken⟩

/-- One declaration of several, or the end of them. -/
theorem declarationsUntil_cons (closing : Kind → Bool) (item : Parse (Option Stmt))
    (tick token : Token) (clock later : List Token) :
    declarationsUntil closing item (tick :: clock) (token :: later) =
      if closing token.kind then { result := .ok [], rest := token :: later, reports := [] }
      else
        (item >>= fun first =>
          declarationsUntil closing item clock >>= fun rest => Pure.pure (first.toList ++ rest))
            (token :: later) := by
  have looked : Reads peek (token :: later) token (token :: later) := rfl
  rw [declarationsUntil, looked.bind_eq]
  split <;> rfl

/--
Declarations are read up to a token that closes them, at the latest the end token,
or until one lacks room.

A long clock does not matter.
-/
theorem declarationsUntil_before_end (closing : Kind → Bool) {lacking : Prop}
    {item : Parse (Option Stmt)} (ends : closing .eof = true) (proceeds : Proceeds lacking item)
    (tokens : List Token) (last : Token) (free : Without .eof tokens) (closed : last.kind = .eof) :
    ∃ seen : Parsed (List Stmt),
      ((∃ found, seen.result = .ok found) ∨ lacking ∧ seen.result = .error .nestedTooDeeply) ∧
      seen.rest <:+ tokens ∧
      ∀ tail clock, tokens.length < clock.length →
        declarationsUntil closing item clock (tokens ++ last :: tail) =
          { seen with rest := seen.rest ++ last :: tail } := by
  -- Each declaration takes a token, so what it leaves is shorter, and so is the clock.
  induction size : tokens.length using Nat.strongRecOn generalizing tokens with
  | ind size ih =>
    subst size
    cases tokens with
    | nil =>
      -- The end token closes the declarations, if nothing has closed them before.
      refine ⟨{ result := .ok [], rest := [], reports := [] }, .inl ⟨[], rfl⟩, List.suffix_rfl, ?_⟩
      intro tail clock long
      obtain ⟨tick, clock, rfl⟩ := List.exists_cons_of_length_pos (Nat.zero_lt_of_lt long)
      rw [List.nil_append, declarationsUntil_cons, closed, if_pos ends]
    | cons token later =>
      by_cases stops : closing token.kind
      · refine ⟨{ result := .ok [], rest := token :: later, reports := [] }, .inl ⟨[], rfl⟩,
          List.suffix_rfl, ?_⟩
        intro tail clock long
        obtain ⟨tick, clock, rfl⟩ := List.exists_cons_of_length_pos (Nat.zero_lt_of_lt long)
        rw [List.cons_append, declarationsUntil_cons, if_pos stops]
      · obtain ⟨⟨result, rest, reports⟩, outcome, taken⟩ :=
          proceeds (token :: later) last free closed
        rcases outcome with ⟨⟨first, rfl⟩, suffix⟩ | ⟨lacks, rfl, suffix⟩
        -- The first declaration is read, and the others are read from what it leaves.
        · have suffix : rest <:+ later := suffix
          have shorter : rest.length ≤ later.length := suffix.length_le
          obtain ⟨⟨result', rest', reports'⟩, outcome', suffix', taken'⟩ :=
            ih rest.length (by simp only [List.length_cons]; omega) rest
              (free.of_suffix (suffix.trans (List.suffix_cons ..))) rfl
          refine
            ⟨{ result := result'.map (first.toList ++ ·), rest := rest'
               reports := reports ++ reports' },
              ?_, suffix'.trans (suffix.trans (List.suffix_cons ..)), ?_⟩
          · rcases outcome' with ⟨found, rfl⟩ | ⟨lacks, rfl⟩
            · exact .inl ⟨_, rfl⟩
            · exact .inr ⟨lacks, rfl⟩
          · intro tail clock long
            obtain ⟨tick, clock, rfl⟩ := List.exists_cons_of_length_pos (Nat.zero_lt_of_lt long)
            simp only [List.length_cons, Nat.add_lt_add_iff_right] at long
            have others := taken' tail clock (by omega)
            rw [List.cons_append, declarationsUntil_cons, if_neg stops, ← List.cons_append,
              bind_eq_of_ok (taken tail)]
            cases result' with
            | ok found =>
              rw [bind_eq_of_ok others]
              simp [Pure.pure, Parse.pure, Except.map]
            | error cause =>
              rw [bind_eq_of_error others]
              rfl
        · -- The first declaration lacks room, and the others are not reached.
          refine ⟨{ result := .error .nestedTooDeeply, rest, reports }, .inr ⟨lacks, rfl⟩,
            suffix, ?_⟩
          intro tail clock long
          obtain ⟨tick, clock, rfl⟩ := List.exists_cons_of_length_pos (Nat.zero_lt_of_lt long)
          rw [List.cons_append, declarationsUntil_cons, if_neg stops, ← List.cons_append,
            bind_eq_of_error (taken tail)]

/-- A block stays before the end token. -/
theorem StaysBefore.blockBody {lacking : Prop} {item : Parse (Option Stmt)}
    (proceeds : Proceeds lacking item) :
    StaysBefore .eof (Parse.blockBody item) := by
  refine StaysBefore.bind ?_ fun body => (StaysBefore.expect (by decide) _).bind fun _ => .pure _
  intro tokens last free closed
  obtain ⟨seen, outcome, suffix, taken⟩ :=
    declarationsUntil_before_end closesBlock rfl proceeds tokens last free closed
  refine ⟨seen, ?_, suffix, fun tail => taken tail _ (by simp)⟩
  rcases outcome with ⟨found, ok⟩ | ⟨_, deep⟩
  · simp [Parsed.IsOrderly, ok]
  · simp [Parsed.IsOrderly, deep]

/-- A declaration stays before the end token. -/
theorem StaysBefore.declarationOver {lacking : Prop} {item : Parse (Option Stmt)} (room : Nat)
    (proceeds : Proceeds lacking item) : StaysBefore .eof (Parse.declarationOver room item) := by
  -- No form begins with the end token, and every part stays before it.
  refine (StaysBefore.accept? rfl).bind fun declares => ?_
  cases declares with
  | some _ => exact StaysBefore.variableDeclaration room
  | none =>
    refine (StaysBefore.accept? rfl).bind fun prints => ?_
    cases prints with
    | some _ => exact StaysBefore.finished _ _
    | none =>
      refine (StaysBefore.accept? rfl).bind fun opens => ?_
      cases opens with
      | some _ => exact (StaysBefore.blockBody proceeds).bind fun _ => .pure _
      | none => exact StaysBefore.finished _ _

/-- A declaration takes at least one token. -/
theorem Takes.declarationOver {lacking : Prop} {item : Parse (Option Stmt)} (room : Nat)
    (proceeds : Proceeds lacking item) : Takes .eof (Parse.declarationOver room item) := by
  intro tokens last tail free closed nonempty value rest reports read
  obtain ⟨token, later, rfl⟩ := List.exists_cons_of_ne_nil nonempty
  -- Behind a word or a brace, whatever follows leaves no more than it finds.
  have behind {step : Parse Stmt} (stays : StaysBefore .eof step)
      (read : step (later ++ last :: tail) = { result := .ok value, rest, reports }) :
      rest.length < (token :: later ++ last :: tail).length := by
    obtain ⟨seen, _, suffix, taken⟩ :=
      stays later last (free.of_suffix (List.suffix_cons ..)) closed
    rw [taken, Parsed.mk.injEq] at read
    have shorter := suffix.length_le
    simp only [← read.2.1, List.length_append, List.length_cons]
    omega
  rw [List.cons_append, declarationOver_cons] at read
  split at read
  · exact behind (StaysBefore.variableDeclaration room) read
  · split at read
    · exact behind (StaysBefore.finished _ _) read
    · split at read
      · exact behind ((StaysBefore.blockBody proceeds).bind fun _ => .pure _) read
      · -- A statement without a word takes its semicolon at least.
        have statement : Takes .eof (expressionStatement room) :=
          Takes.bind (StaysBefore.assignment rfl room) (fun e => (Takes.expect _).andReturn _)
            fun e => (StaysBefore.expect (by decide) _).bind fun _ => .pure _
        exact statement (token :: later) last tail free closed nonempty value rest reports read

/-- A declaration always goes on, unless it has no room at all: then it stops where it stands. -/
theorem Proceeds.declaration (room : Nat) : Proceeds (room = 0) (Parse.declaration room) := by
  induction room with
  | zero =>
    intro tokens last _ _
    exact ⟨{ result := .error .nestedTooDeeply, rest := tokens, reports := [] },
      .inr ⟨rfl, rfl, List.suffix_rfl⟩, fun _ => rfl⟩
  | succ room ih =>
    exact Proceeds.recovering (StaysBefore.declarationOver room ih)
      (Takes.declarationOver room ih) _

end LoxLang.Parse

namespace LoxLang

/-- A token list is read up to its first end token, whatever its mistakes are and
whatever stands behind it. -/
theorem parseTokens_before_end [Host] {tokens : List Token} {last : Token}
    (free : Without .eof tokens) (closed : last.kind = .eof) :
    ∃ (seen : Parsed (List Stmt)) (program : List Stmt), seen.result = .ok program ∧
      seen.rest <:+ tokens ∧
      ∀ tail, parseTokens (tokens ++ last :: tail) =
        { seen with rest := seen.rest ++ last :: tail } := by
  obtain ⟨seen, ⟨program, ok⟩ | ⟨lacks, _⟩, suffix, taken⟩ :=
    Parse.declarationsUntil_before_end (· == .eof) rfl
      (Parse.Proceeds.declaration nestingLimit) tokens last free closed
  · -- The tokens themselves are a clock that is long enough.
    exact ⟨seen, program, ok, suffix, fun tail => taken tail _ (by simp)⟩
  · -- Outside of all blocks there is room for a declaration.
    exact absurd lacks (Nat.ne_of_gt nestingLimit_pos)

end LoxLang
