import LoxLang.Proofs.Grammar.Reading

/-!
Steps that stay before a token: they never take it, and what stands behind it does not
matter to them.
-/

namespace LoxLang

/--
What comes of a step that was given enough tokens.

Neither the tokens nor the rounds of a loop run out, and a refusal has been reported.
-/
def Parsed.IsOrderly {α : Type} (parsed : Parsed α) : Prop :=
  parsed.result ≠ .error .unended ∧ parsed.result ≠ .error .outOfRounds ∧
    (parsed.result = .error .refused → parsed.reports ≠ [])

/-- Tokens none of which is of the given kind. -/
def Without (barrier : Kind) (tokens : List Token) : Prop :=
  ∀ token ∈ tokens, token.kind ≠ barrier

instance (barrier : Kind) (tokens : List Token) : Decidable (Without barrier tokens) :=
  inferInstanceAs (Decidable (∀ token ∈ tokens, token.kind ≠ barrier))

/-- The end of a list without a kind is without it. -/
theorem Without.of_suffix {barrier : Kind} {tokens rest : List Token}
    (free : Without barrier tokens) (suffix : rest <:+ tokens) : Without barrier rest :=
  fun token member => free token (suffix.subset member)

/-- A list with a token of a kind is cut at the first one. -/
theorem cut_at_first {barrier : Kind} {tokens : List Token}
    (present : ∃ token ∈ tokens, token.kind = barrier) :
    ∃ before last tail, tokens = before ++ last :: tail ∧ last.kind = barrier ∧
      Without barrier before := by
  obtain ⟨token, member, fits⟩ := present
  cases found : tokens.find? (·.kind == barrier) with
  | none => exact absurd fits (by simpa using List.find?_eq_none.mp found token member)
  | some last =>
    obtain ⟨isBarrier, before, tail, rfl, others⟩ := List.find?_eq_some_iff_append.mp found
    exact ⟨before, last, tail, rfl, by simpa using isBarrier, fun t m => by simpa using others t m⟩

namespace Parse

variable {α β : Type} {barrier : Kind}

/--
A step stays before the first token of a kind.

What it gives, reports and leaves of the tokens before that token is the same
whatever stands behind it.
-/
def StaysBefore (barrier : Kind) (step : Parse α) : Prop :=
  ∀ tokens last, Without barrier tokens → last.kind = barrier →
    ∃ seen : Parsed α, seen.IsOrderly ∧ seen.rest <:+ tokens ∧
      ∀ tail, step (tokens ++ last :: tail) = { seen with rest := seen.rest ++ last :: tail }

namespace StaysBefore

/-- A step that takes no token stays before any. -/
theorem pure (value : α) : StaysBefore barrier (Pure.pure value) := by
  intro tokens last _ _
  exact ⟨{ result := .ok value, rest := tokens, reports := [] }, by simp [Parsed.IsOrderly],
    List.suffix_rfl, fun _ => rfl⟩

/-- Two steps that stay before a token do so one after the other. -/
theorem bind {step : Parse α} {next : α → Parse β} (first : StaysBefore barrier step)
    (second : ∀ value, StaysBefore barrier (next value)) : StaysBefore barrier (step >>= next) := by
  intro tokens last free closed
  obtain ⟨seen, orderly, suffix, taken⟩ := first tokens last free closed
  rcases seen with ⟨result, rest, reports⟩
  cases result with
  | error stop =>
    -- The second step is not reached.
    refine ⟨{ result := .error stop, rest, reports }, by simpa [Parsed.IsOrderly] using orderly,
      suffix, ?_⟩
    exact fun tail => bind_eq_of_error (taken tail) next
  | ok value =>
    -- What the first step leaves ends the list it was given, so the second one
    -- stays before the same token.
    obtain ⟨seen', orderly', suffix', taken'⟩ :=
      second value rest last (free.of_suffix suffix) closed
    refine ⟨{ seen' with reports := reports ++ seen'.reports }, ?_, suffix'.trans suffix, ?_⟩
    · exact ⟨orderly'.1, orderly'.2.1, fun refused => by simp [orderly'.2.2 refused]⟩
    · intro tail
      rw [bind_eq_of_ok (taken tail), taken']

/-- Lack of room stops a step where it stands. -/
theorem nestedTooDeeply : StaysBefore barrier (stop .nestedTooDeeply : Parse α) := by
  intro tokens last _ _
  exact ⟨{ result := .error .nestedTooDeeply, rest := tokens, reports := [] },
    by simp [Parsed.IsOrderly], List.suffix_rfl, fun _ => rfl⟩

/-- A report takes no token. -/
theorem report (diagnostic : Diagnostic) : StaysBefore barrier (Parse.report diagnostic) := by
  intro tokens last _ _
  exact ⟨{ result := .ok (), rest := tokens, reports := [diagnostic] },
    by simp [Parsed.IsOrderly], List.suffix_rfl, fun _ => rfl⟩

/-- A refusal takes no token. -/
theorem refuse (fault : Fault) : StaysBefore barrier (Parse.refuse fault : Parse α) := by
  -- The report names the token that stands first, which may be the barrier itself.
  intro tokens last _ _
  cases tokens with
  | nil =>
    exact ⟨{ result := .error .refused, rest := [], reports := [.atToken last fault] },
      by simp [Parsed.IsOrderly], List.suffix_rfl, fun _ => rfl⟩
  | cons token later =>
    exact ⟨{ result := .error .refused, rest := token :: later, reports := [.atToken token fault] },
      by simp [Parsed.IsOrderly], List.suffix_rfl, fun _ => rfl⟩

/-- What is not accepted is not taken. -/
theorem accept? {accepted : Kind → Bool} (kept : accepted barrier = false) :
    StaysBefore barrier (Parse.accept? accepted) := by
  intro tokens last _ closed
  cases tokens with
  | nil =>
    -- The barrier stands first, and it is not accepted.
    refine ⟨{ result := .ok none, rest := [], reports := [] }, by simp [Parsed.IsOrderly],
      List.suffix_rfl, ?_⟩
    intro tail
    rw [List.nil_append, accept?_cons, closed, kept]
    rfl
  | cons token later =>
    by_cases fits : accepted token.kind
    · refine ⟨{ result := .ok (some token), rest := later, reports := [] }, by
        simp [Parsed.IsOrderly],
        List.suffix_cons .., ?_⟩
      intro tail
      rw [List.cons_append, accept?_cons, if_pos fits]
    · refine ⟨{ result := .ok none, rest := token :: later, reports := [] }, by
        simp [Parsed.IsOrderly],
        List.suffix_rfl, ?_⟩
      intro tail
      rw [List.cons_append, accept?_cons, if_neg fits]

/-- A kind other than the expected one is not taken. -/
theorem expect {kind : Kind} (other : barrier ≠ kind) (fault : Fault) :
    StaysBefore barrier (Parse.expect kind fault) := by
  refine bind (accept? (by simpa using other)) ?_
  intro found
  cases found with
  | none => exact refuse fault
  | some token => exact pure token

/-- A list with such a token still has it after the step, which neither runs out of tokens
nor refuses in silence. -/
theorem of_mem {step : Parse α} (stays : StaysBefore barrier step) {tokens : List Token}
    (present : ∃ token ∈ tokens, token.kind = barrier) :
    (step tokens).IsOrderly ∧ ∃ token ∈ (step tokens).rest, token.kind = barrier := by
  obtain ⟨before, last, tail, rfl, closed, free⟩ := cut_at_first present
  obtain ⟨seen, orderly, _, taken⟩ := stays before last free closed
  rw [taken]
  exact ⟨orderly, last, by simp, closed⟩

end StaysBefore

/-- One round of a chain: an operator and its right operand, or the end of the chain. -/
theorem chainFrom_cons (operators : Kind → Bool) (operand : Parse Expr) (tick token : Token)
    (clock later : List Token) (left : Expr) :
    chainFrom operators operand (tick :: clock) left (token :: later) =
      if operators token.kind then
        (operand >>= fun right => chainFrom operators operand clock (.binary left token right))
          later
      else { result := .ok left, rest := token :: later, reports := [] } := by
  by_cases fits : operators token.kind
  · have taken : Reads (accept? operators) (token :: later) (some token) later := by
      rw [Reads, accept?_cons, if_pos fits]
    rw [chainFrom, taken.bind_eq, if_pos fits]
  · have left_alone : Reads (accept? operators) (token :: later) none (token :: later) := by
      rw [Reads, accept?_cons, if_neg fits]
    rw [chainFrom, left_alone.bind_eq, if_neg fits]
    rfl

/-- A chain stays before a token that is none of its operators; a clock that is long
enough does not matter. -/
theorem StaysBefore.chainFrom {operators : Kind → Bool} {operand : Parse Expr}
    (kept : operators barrier = false) (stays : StaysBefore barrier operand) (tokens : List Token)
    (last : Token) (left : Expr) (free : Without barrier tokens) (closed : last.kind = barrier) :
    ∃ seen : Parsed Expr, seen.IsOrderly ∧ seen.rest <:+ tokens ∧
      ∀ tail clock, tokens.length < clock.length →
        Parse.chainFrom operators operand clock left (tokens ++ last :: tail) =
          { seen with rest := seen.rest ++ last :: tail } := by
  -- Each round takes an operator, so what it leaves is shorter, and so is the clock.
  induction size : tokens.length using Nat.strongRecOn generalizing tokens left with
  | ind size ih =>
    subst size
    cases tokens with
    | nil =>
      -- The barrier is no operator, so the chain ends before it.
      refine ⟨{ result := .ok left, rest := [], reports := [] }, by simp [Parsed.IsOrderly],
        List.suffix_rfl, ?_⟩
      intro tail clock long
      obtain ⟨tick, clock, rfl⟩ := List.exists_cons_of_length_pos (Nat.zero_lt_of_lt long)
      rw [List.nil_append, chainFrom_cons, closed, kept]
      rfl
    | cons token later =>
      by_cases fits : operators token.kind
      · obtain ⟨seen, orderly, suffix, taken⟩ :=
          stays later last (free.of_suffix (List.suffix_cons ..)) closed
        rcases seen with ⟨result, rest, reports⟩
        have shorter : rest.length ≤ later.length := suffix.length_le
        cases result with
        | error stop =>
          -- A right operand that stops ends the chain with it.
          refine ⟨{ result := .error stop, rest, reports }, by simpa [Parsed.IsOrderly]
            using orderly,
            suffix.trans (List.suffix_cons ..), ?_⟩
          intro tail clock long
          obtain ⟨tick, clock, rfl⟩ := List.exists_cons_of_length_pos (Nat.zero_lt_of_lt long)
          rw [List.cons_append, chainFrom_cons, if_pos fits, bind_eq_of_error (taken tail)]
        | ok right =>
          -- The chain goes on from the tree that holds the operand.
          obtain ⟨seen', orderly', suffix', taken'⟩ :=
            ih rest.length (by simp only [List.length_cons]; omega) rest
              (.binary left token right) (free.of_suffix (suffix.trans (List.suffix_cons ..))) rfl
          refine ⟨{ seen' with reports := reports ++ seen'.reports }, ?_,
            suffix'.trans (suffix.trans (List.suffix_cons ..)), ?_⟩
          · exact ⟨orderly'.1, orderly'.2.1, fun refused => by simp [orderly'.2.2 refused]⟩
          · intro tail clock long
            obtain ⟨tick, clock, rfl⟩ := List.exists_cons_of_length_pos (Nat.zero_lt_of_lt long)
            simp only [List.length_cons, Nat.add_lt_add_iff_right] at long
            rw [List.cons_append, chainFrom_cons, if_pos fits, bind_eq_of_ok (taken tail),
              taken' tail clock (by omega)]
      · refine ⟨{ result := .ok left, rest := token :: later, reports := [] }, by
          simp [Parsed.IsOrderly],
          List.suffix_rfl, ?_⟩
        intro tail clock long
        obtain ⟨tick, clock, rfl⟩ := List.exists_cons_of_length_pos (Nat.zero_lt_of_lt long)
        rw [List.cons_append, chainFrom_cons, if_neg fits]

/-- A chain stays before a token that is none of its operators. -/
theorem StaysBefore.chain {operators : Kind → Bool} {operand : Parse Expr}
    (kept : operators barrier = false) (stays : StaysBefore barrier operand) :
    StaysBefore barrier (Parse.chain operators operand) := by
  refine StaysBefore.bind stays ?_
  intro first tokens last free closed
  obtain ⟨seen, orderly, suffix, taken⟩ :=
    StaysBefore.chainFrom kept stays tokens last first free closed
  exact ⟨seen, orderly, suffix, fun tail => taken tail _ (by simp)⟩

end Parse

/-- The kinds of token that can follow an expression but never belong to one. -/
def Kind.endsExpression : Kind → Bool
  | semicolon | eof => true
  | _ => false

namespace Parse

variable {barrier : Kind}

/-- A primary by its first token. -/
theorem primary_cons (inner : Parse Expr) (token : Token) (later : List Token) :
    primary inner (token :: later) =
      match token.kind with
      | .kwFalse => { result := .ok (.literal (.bool false)), rest := later, reports := [] }
      | .kwTrue => { result := .ok (.literal (.bool true)), rest := later, reports := [] }
      | .kwNil => { result := .ok (.literal .nil), rest := later, reports := [] }
      | .number | .string =>
        { result := .ok (.literal token.literal), rest := later, reports := [] }
      | .identifier => { result := .ok (.use token), rest := later, reports := [] }
      | .leftParen =>
        (inner >>= fun e => expect .rightParen .unclosedGrouping >>= fun _ =>
          Pure.pure (.grouping e)) later
      | _ =>
        { result := .error .refused, rest := token :: later,
          reports := [.atToken token .missingExpression] } := by
  have looked : Reads peek (token :: later) token (token :: later) := rfl
  unfold primary
  rw [looked.bind_eq]
  cases token.kind <;> rfl

/-- Away from a parenthesis, a primary takes its first token or refuses it, whatever follows. -/
theorem primary_alone (inner : Parse Expr) {token : Token} (plain : token.kind ≠ .leftParen) :
    (∃ e, ∀ later, primary inner (token :: later) =
      { result := .ok e, rest := later, reports := [] }) ∨
      ∀ later, primary inner (token :: later) =
        { result := .error .refused, rest := token :: later,
          reports := [.atToken token .missingExpression] } := by
  -- No other kind of token makes the primary look further.
  simp only [primary_cons]
  cases kind : token.kind <;> simp_all

namespace StaysBefore

/-- A primary stays before a token that ends expressions. -/
theorem primary {inner : Parse Expr} (outside : barrier.endsExpression)
    (stays : StaysBefore barrier inner) :
    StaysBefore barrier (Parse.primary inner) := by
  intro tokens last free closed
  -- At the barrier itself there is no expression, whatever the barrier is.
  cases tokens with
  | nil =>
    refine
      ⟨{ result := .error .refused, rest := [], reports := [.atToken last .missingExpression] },
        by simp [Parsed.IsOrderly], List.suffix_rfl, ?_⟩
    intro tail
    rw [List.nil_append, primary_cons, closed]
    revert outside
    cases barrier <;> simp [Kind.endsExpression]
  | cons token later =>
    have unlike : barrier ≠ .rightParen := by rintro rfl; simp [Kind.endsExpression] at outside
    by_cases paren : token.kind = .leftParen
    · -- Behind the parenthesis the inner expression and the closing one follow.
      have grouped : StaysBefore barrier
          (inner >>= fun e => Parse.expect .rightParen .unclosedGrouping >>= fun _ =>
            Pure.pure (Expr.grouping e)) :=
        stays.bind fun e => (expect unlike _).bind fun _ => pure _
      obtain ⟨seen, orderly, suffix, taken⟩ :=
        grouped later last (free.of_suffix (List.suffix_cons ..)) closed
      refine ⟨seen, orderly, suffix.trans (List.suffix_cons ..), ?_⟩
      intro tail
      rw [List.cons_append, primary_cons, paren]
      exact taken tail
    · rcases primary_alone inner paren with ⟨e, read⟩ | refused
      · exact ⟨{ result := .ok e, rest := later, reports := [] }, by simp [Parsed.IsOrderly],
          List.suffix_cons .., fun tail => read _⟩
      · exact ⟨{ result := .error .refused, rest := token :: later, reports := _ },
          by simp [Parsed.IsOrderly], List.suffix_rfl, fun tail => refused _⟩

/-- The four levels of binary operators stay before a token that ends expressions. -/
theorem equality {operand : Parse Expr} (outside : barrier.endsExpression)
    (stays : StaysBefore barrier operand) :
    StaysBefore barrier (Parse.equality operand) := by
  -- No binary operator ends expressions.
  have unlike : barrier.isEquality = false ∧ barrier.isComparison = false ∧ barrier.isTerm = false ∧
      barrier.isFactor = false := by
    revert outside
    cases barrier <;> decide
  exact chain unlike.1 (chain unlike.2.1 (chain unlike.2.2.1 (chain unlike.2.2.2 stays)))

/-- Assignments and operands stay before a token that ends expressions. -/
theorem assignment_and_prefixed (outside : barrier.endsExpression) (room : Nat) :
    StaysBefore barrier (assignment room) ∧ StaysBefore barrier (prefixed room) := by
  -- The induction is on the room, which both share: each gets less of it when it calls the other.
  have unlike : barrier.isPrefix = false := by
    revert outside
    cases barrier <;> decide
  have unequal : StaysBefore barrier (Parse.accept? (· == .equal)) := by
    refine accept? ?_
    revert outside
    cases barrier <;> decide
  induction room with
  | zero =>
    exact ⟨by rw [assignment]; exact nestedTooDeeply, by rw [prefixed]; exact nestedTooDeeply⟩
  | succ room ih =>
    constructor
    · rw [assignment]
      refine (equality outside ih.2).bind fun left => unequal.bind fun found => ?_
      cases found with
      | none => exact pure left
      | some equals =>
        refine ih.1.bind fun value => ?_
        cases left with
        | use name => exact pure _
        -- A target that cannot be assigned to is reported, and reading goes on.
        | _ => exact (report _).bind fun _ => pure _
    · rw [prefixed]
      refine (accept? unlike).bind fun found => ?_
      cases found with
      | none => exact primary outside ih.1
      | some operator => exact ih.2.bind fun operand => pure _

/-- An expression stays before a token that ends expressions. -/
theorem assignment (outside : barrier.endsExpression) (room : Nat) :
    StaysBefore barrier (Parse.assignment room) :=
  (assignment_and_prefixed outside room).1

end StaysBefore

end Parse

end LoxLang
