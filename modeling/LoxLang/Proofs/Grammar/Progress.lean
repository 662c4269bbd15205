import LoxLang.Proofs.Grammar.Completeness
import LoxLang.Proofs.Grammar.Salvage

/-!
Reading always gets further: it stops at the first end token, and runs out of tokens
only if there is none.
-/

namespace LoxLang

namespace Parse

variable {α β : Type}

/-- Whether a step never runs out of rounds, whatever list it reads, and leaves an
end of that list. -/
def Lasts (step : Parse α) : Prop :=
  ∀ tokens, (step tokens).result ≠ .error .outOfRounds ∧ (step tokens).rest <:+ tokens

/-- Whether a step that goes on gets past the token it starts at, if that is not the end token. -/
def Advances (item : Parse (Option α)) : Prop :=
  ∀ token later found, token.kind ≠ .eof → (item (token :: later)).result = .ok found →
    (item (token :: later)).rest <:+ later

namespace Lasts

/-- A value needs no round. -/
theorem pure (value : α) : Lasts (Pure.pure value) :=
  fun _ => ⟨by rintro ⟨⟩, List.suffix_rfl⟩

/-- A step that stops for another reason has not run out of rounds. -/
theorem stop {cause : Stop} (other : cause ≠ .outOfRounds) : Lasts (Parse.stop cause : Parse α) :=
  fun _ => ⟨fun same => other (Except.error.inj same), List.suffix_rfl⟩

/-- A report needs no round. -/
theorem report (diagnostic : Diagnostic) : Lasts (Parse.report diagnostic) :=
  fun _ => ⟨by rintro ⟨⟩, List.suffix_rfl⟩

/-- A refusal needs no round. -/
theorem refuse (fault : Fault) : Lasts (Parse.refuse fault : Parse α) := by
  intro tokens
  cases tokens with
  | nil => exact stop (by decide) []
  | cons token later =>
    rw [refuse_cons]
    exact ⟨by simp, List.suffix_rfl⟩

/-- Two steps that last do so one after the other. -/
theorem bind {step : Parse α} {next : α → Parse β} (first : Lasts step)
    (second : ∀ value, Lasts (next value)) : Lasts (step >>= next) := by
  intro tokens
  obtain ⟨lasts, suffix⟩ := first tokens
  rcases tried : step tokens with ⟨result, rest, reports⟩
  rw [tried] at lasts suffix
  cases result with
  | error cause =>
    rw [bind_eq_of_error tried]
    exact ⟨fun same => lasts (congrArg Except.error (Except.error.inj same)), suffix⟩
  | ok value =>
    rw [bind_eq_of_ok tried]
    exact ⟨(second value rest).1, (second value rest).2.trans suffix⟩

/-- A token is accepted or not in one look. -/
theorem accept? (accepted : Kind → Bool) : Lasts (Parse.accept? accepted) := by
  intro tokens
  cases tokens with
  | nil => exact stop (by decide) []
  | cons token later =>
    rw [accept?_cons]
    split
    · exact ⟨by rintro ⟨⟩, List.suffix_cons ..⟩
    · exact ⟨by rintro ⟨⟩, List.suffix_rfl⟩

/-- A token is expected in one look. -/
theorem expect (kind : Kind) (fault : Fault) : Lasts (Parse.expect kind fault) := by
  refine bind (accept? _) fun found => ?_
  cases found with
  | none => exact refuse fault
  | some token => exact pure token

/-- A loop over operands that last does so with a clock as long as the list: every
round takes an operator. -/
theorem chainFrom {operators : Kind → Bool} {operand : Parse Expr} (lasts : Lasts operand)
    (clock : List Token) (left : Expr) (tokens : List Token) (long : tokens.length ≤ clock.length) :
    (Parse.chainFrom operators operand clock left tokens).result ≠ .error .outOfRounds ∧
      (Parse.chainFrom operators operand clock left tokens).rest <:+ tokens := by
  induction clock generalizing left tokens with
  | nil =>
    -- The clock has run down at the end of the list.
    obtain rfl := List.eq_nil_of_length_eq_zero (Nat.le_zero.mp long)
    exact stop (by decide) []
  | cons tick clock ih =>
    cases tokens with
    | nil => exact stop (by decide) []
    | cons token later =>
      rw [chainFrom_cons]
      split
      · obtain ⟨goes, suffix⟩ := lasts later
        rcases tried : operand later with ⟨result, rest, reports⟩
        rw [tried] at goes suffix
        have below : rest.length ≤ later.length := suffix.length_le
        cases result with
        | error cause =>
          rw [bind_eq_of_error tried]
          exact ⟨fun same => goes (congrArg Except.error (Except.error.inj same)),
            suffix.trans (List.suffix_cons ..)⟩
        | ok right =>
          obtain ⟨goesOn, left⟩ := ih (.binary left token right) rest
            (by simp only [List.length_cons] at long; omega)
          rw [bind_eq_of_ok tried]
          exact ⟨goesOn, (left.trans suffix).trans (List.suffix_cons ..)⟩
      · exact ⟨by rintro ⟨⟩, List.suffix_rfl⟩

/-- A chain over operands that last does so. -/
theorem chain {operators : Kind → Bool} {operand : Parse Expr} (lasts : Lasts operand) :
    Lasts (Parse.chain operators operand) :=
  bind lasts fun first tokens => chainFrom lasts tokens first tokens (Nat.le_refl _)

/-- A primary lasts if what its parentheses hold does. -/
theorem primary {inner : Parse Expr} (lasts : Lasts inner) : Lasts (Parse.primary inner) := by
  intro tokens
  cases tokens with
  | nil => exact stop (by decide) []
  | cons token later =>
    by_cases paren : token.kind = .leftParen
    · have grouped : Lasts (inner >>= fun e =>
          Parse.expect .rightParen .unclosedGrouping >>= fun _ => Pure.pure (Expr.grouping e)) :=
        bind lasts fun _ => bind (expect _ _) fun _ => pure _
      rw [primary_cons, paren]
      exact ⟨(grouped later).1, (grouped later).2.trans (List.suffix_cons ..)⟩
    · -- Any other token is taken alone, or refused.
      rcases primary_alone inner paren with ⟨e, read⟩ | refused
      · rw [read]
        exact ⟨by rintro ⟨⟩, List.suffix_cons ..⟩
      · rw [refused]
        exact ⟨by simp, List.suffix_rfl⟩

/-- Assignments and operands last, whatever room there is. -/
theorem assignment_and_prefixed (room : Nat) : Lasts (assignment room) ∧ Lasts (prefixed room) := by
  -- The induction is on the room, which assignments and operands share.
  induction room with
  | zero =>
    exact ⟨by rw [assignment]; exact stop (by decide), by rw [prefixed]; exact stop (by decide)⟩
  | succ room ih =>
    constructor
    · rw [assignment]
      refine bind (chain (chain (chain (chain ih.2)))) fun left => bind (accept? _) fun found => ?_
      cases found with
      | none => exact pure left
      | some equals =>
        refine bind ih.1 fun value => ?_
        cases left with
        | use name => exact pure _
        | _ => exact bind (report _) fun _ => pure _
    · rw [prefixed]
      refine bind (accept? _) fun found => ?_
      cases found with
      | none => exact primary ih.1
      | some operator => exact bind ih.2 fun _ => pure _

/-- An expression and the semicolon behind it last. -/
theorem finished (next : Expr → Stmt) (room : Nat) (fault : Fault) :
    Lasts (assignment room >>= fun e => Parse.expect .semicolon fault >>= fun _ =>
      Pure.pure (next e)) :=
  bind (assignment_and_prefixed room).1 fun _ => bind (expect _ _) fun _ => pure _

/-- What follows the word that declares a variable lasts. -/
theorem variableDeclaration (room : Nat) : Lasts (Parse.variableDeclaration room) := by
  refine bind (expect _ _) fun name => bind (accept? _) fun found => ?_
  cases found with
  | none => exact bind (expect _ _) fun _ => pure _
  | some equals => exact finished _ _ _

end Lasts

/--
Declarations end at a token that closes them, or stop for a reason for which one of them stops.

A clock as long as the list lasts, since every declaration takes a token.
-/
theorem declarationsUntil_ends {closing : Kind → Bool} {item : Parse (Option Stmt)}
    {allowed : Stop → Prop} (ends : closing .eof = true) (lasts : item.Lasts)
    (advances : item.Advances) (unended : allowed .unended)
    (stops : ∀ tokens cause, (item tokens).result = .error cause → allowed cause)
    (clock tokens : List Token) (long : tokens.length ≤ clock.length) :
    (declarationsUntil closing item clock tokens).rest <:+ tokens ∧
      ((∃ cause, (declarationsUntil closing item clock tokens).result = .error cause ∧
        allowed cause) ∨
        (∃ found, (declarationsUntil closing item clock tokens).result = .ok found) ∧
          ∃ token later, (declarationsUntil closing item clock tokens).rest = token :: later ∧
            closing token.kind = true) := by
  -- The induction is on the clock, of which every declaration takes one tick.
  induction clock generalizing tokens with
  | nil =>
    obtain rfl := List.eq_nil_of_length_eq_zero (Nat.le_zero.mp long)
    exact ⟨List.suffix_rfl, .inl ⟨.unended, rfl, unended⟩⟩
  | cons tick clock ih =>
    cases tokens with
    | nil => exact ⟨List.suffix_rfl, .inl ⟨.unended, rfl, unended⟩⟩
    | cons token later =>
      rw [declarationsUntil_cons]
      by_cases closes : closing token.kind = true
      · rw [if_pos closes]
        exact ⟨List.suffix_rfl, .inr ⟨⟨[], rfl⟩, token, later, rfl, closes⟩⟩
      · have inside : token.kind ≠ .eof := by
          intro isEnd
          exact closes (isEnd ▸ ends)
        -- The item is tried once; what it answers decides the rest.
        have known := stops (token :: later)
        have suffix := (lasts (token :: later)).2
        have past := advances token later
        rw [if_neg closes]
        rcases tried : item (token :: later) with ⟨result, rest, reports⟩
        rw [tried] at known suffix past
        cases result with
        | error cause =>
          rw [bind_eq_of_error tried]
          exact ⟨suffix, .inl ⟨cause, rfl, known cause rfl⟩⟩
        | ok found =>
          -- What the others leave, and whether they stop, is not changed by the one before them.
          have past : rest <:+ later := past found inside rfl
          have below : rest.length ≤ later.length := past.length_le
          obtain ⟨left, others⟩ := ih rest (by simp only [List.length_cons] at long; omega)
          rw [bind_eq_of_ok tried]
          rcases read : declarationsUntil closing item clock rest with ⟨result, behind, told⟩
          rw [read] at left others
          have whole : behind <:+ token :: later := (left.trans past).trans (List.suffix_cons ..)
          cases result with
          | error cause =>
            rw [bind_eq_of_error read]
            exact ⟨whole, .inl (others.resolve_right (by simp))⟩
          | ok program =>
            rw [bind_eq_of_ok read]
            exact ⟨whole, .inr ⟨⟨_, rfl⟩, (others.resolve_left (by simp)).2⟩⟩

/-- A declaration lasts if those inside it do and get past their tokens. -/
theorem Lasts.declarationOver {item : Parse (Option Stmt)} (room : Nat) (lasts : item.Lasts)
    (advances : item.Advances) : Lasts (Parse.declarationOver room item) := by
  -- The loop inside a block is the one that could run out of rounds: each round gets past a token.
  have body : Lasts fun tokens => declarationsUntil closesBlock item tokens tokens := by
    intro tokens
    have stops (tokens : List Token) (cause : Stop)
        (stopped : (item tokens).result = .error cause) :
        cause ≠ .outOfRounds := by
      rintro rfl
      exact (lasts tokens).1 stopped
    obtain ⟨suffix, ended⟩ :=
      @declarationsUntil_ends closesBlock _ _ rfl lasts advances (by decide) stops
        tokens tokens (Nat.le_refl _)
    refine ⟨fun out => ?_, suffix⟩
    rcases ended with ⟨cause, stopped, other⟩ | ⟨⟨found, ok⟩, _⟩
    · exact other (Except.error.inj (stopped.symm.trans out))
    · cases ok.symm.trans out
  -- The other forms are sequences of parsers that last.
  refine bind (accept? _) fun declares => ?_
  cases declares with
  | some _ => exact variableDeclaration room
  | none =>
    refine bind (accept? _) fun prints => ?_
    cases prints with
    | some _ => exact finished _ _ _
    | none =>
      refine bind (accept? _) fun opens => ?_
      cases opens with
      | some _ => exact bind (bind body fun _ => bind (expect _ _) fun _ => pure _) fun _ => pure _
      | none => exact finished _ _ _

/-- Recovery leaves an end of the list, and lacks nothing but tokens. -/
theorem recovered_ends (reports : List Diagnostic) (tokens : List Token) :
    (recovered reports tokens : Parsed (Option α)).rest <:+ tokens ∧
      ∀ cause, (recovered reports tokens : Parsed (Option α)).result = .error cause →
        cause = .unended := by
  refine ⟨(recovered_spec reports tokens).1, fun cause stopped => ?_⟩
  rw [recovered] at stopped
  cases resumed : resume tokens with
  | none =>
    rw [resumed] at stopped
    exact (Except.error.inj stopped).symm
  | some rest =>
    rw [resumed] at stopped
    cases stopped

/-- A step with its recovery leaves an end of the list, and lacks nothing but tokens
if the step lasts. -/
theorem recovering_ends {step : Parse α} (lasts : step.Lasts) (tokens : List Token) :
    (recovering step tokens).rest <:+ tokens ∧
      ∀ cause, (recovering step tokens).result = .error cause → cause = .unended := by
  obtain ⟨goes, suffix⟩ := lasts tokens
  rcases tried : step tokens with ⟨result, rest, reports⟩
  rw [tried] at goes suffix
  simp only [recovering, tried]
  -- A refusal and too deep a nesting are recovered from, as long as a token is left.
  cases result with
  | ok value => exact ⟨suffix, by rintro cause ⟨⟩⟩
  | error reason =>
    cases reason with
    | refused =>
      exact ⟨(recovered_ends reports rest).1.trans suffix, (recovered_ends reports rest).2⟩
    | unended => exact ⟨suffix, fun cause stopped => (Except.error.inj stopped).symm⟩
    | outOfRounds => exact absurd rfl goes
    | nestedTooDeeply =>
      cases rest with
      | nil => exact ⟨List.nil_suffix, fun cause stopped => (Except.error.inj stopped).symm⟩
      | cons token later => exact ⟨(recovered_ends _ _).1.trans suffix, (recovered_ends _ _).2⟩

/-- Recovery gets past the token at fault, if that is not the end token. -/
theorem recovered_past {reports : List Diagnostic} {token : Token} {later rest : List Token}
    {found : Option α} (inside : token.kind ≠ .eof) (suffix : rest <:+ token :: later)
    (ok : (recovered reports rest : Parsed (Option α)).result = .ok found) :
    (recovered reports rest : Parsed (Option α)).rest <:+ later := by
  rcases List.suffix_cons_iff.mp suffix with rfl | behind
  · -- The fault is at the first token, which is skipped.
    rw [recovered, resume, if_neg inside] at ok ⊢
    cases skipped : skipFrom token.kind later with
    | none => simp [skipped] at ok
    | some after => exact suffix_of_skipFrom skipped
  · exact (recovered_spec reports rest).1.trans behind

/-- A declaration with its recovery gets past its first token, with a result and after a mistake. -/
theorem Advances.recovering {step : Parse Stmt} (lasts : step.Lasts)
    (spends : step.Spends Grammar.KeptStmt) : Advances (Parse.recovering step) := by
  intro token later found inside ok
  have suffix := (lasts (token :: later)).2
  obtain ⟨used, same, kept⟩ := spends (token :: later)
  rcases tried : step (token :: later) with ⟨result, rest, reports⟩
  rw [tried] at suffix same kept
  simp only [Parse.recovering, tried] at ok ⊢
  cases result with
  | ok stmt =>
    -- A statement is made of tokens, so at least one was taken.
    obtain ⟨tokens, within, derived⟩ := kept stmt rfl
    obtain ⟨first, more, rfl, _⟩ := derived.opens
    cases used with
    | nil => exact absurd within (by simp)
    | cons other used =>
      rw [List.cons_append, List.cons.injEq] at same
      exact ⟨used, same.2.symm⟩
  | error reason =>
    cases reason with
    | refused => exact recovered_past inside suffix ok
    | unended | outOfRounds => cases ok
    | nestedTooDeeply =>
      cases rest with
      | nil => cases ok
      | cons other more => exact recovered_past inside suffix ok

/-- A declaration lasts, and gets past its first token if it goes on. -/
theorem declaration_lasts (room : Nat) :
    Lasts (declaration room) ∧ Advances (declaration room) := by
  induction room with
  | zero => exact ⟨.stop (by decide), by rintro _ _ _ _ ⟨⟩⟩
  | succ room ih =>
    have lasts := Lasts.declarationOver room ih.1 ih.2
    refine ⟨fun tokens => ⟨fun out => ?_, (recovering_ends lasts tokens).1⟩, ?_⟩
    · cases (recovering_ends lasts tokens).2 _ out
    · exact .recovering lasts
        (Grammar.spends_declarationOver room (Grammar.spends_declaration room))

/-- A declaration that has room lacks nothing but tokens. -/
theorem declaration_stops {room : Nat} (roomy : 0 < room) {tokens : List Token} {cause : Stop}
    (stopped : (declaration room tokens).result = .error cause) : cause = .unended := by
  obtain ⟨room, rfl⟩ := Nat.exists_eq_succ_of_ne_zero (Nat.ne_of_gt roomy)
  have inside := declaration_lasts room
  exact (recovering_ends (Lasts.declarationOver room inside.1 inside.2) tokens).2 cause stopped

end Parse

section

variable [Host]

/-- Reading gives a program and stops at an end token, or runs out of tokens. -/
theorem parseTokens_ends (tokens : List Token) :
    (parseTokens tokens).rest <:+ tokens ∧
      ((parseTokens tokens).result = .error .unended ∨
        (∃ program, (parseTokens tokens).result = .ok program) ∧
          ∃ token later, (parseTokens tokens).rest = token :: later ∧ token.kind = .eof) := by
  obtain ⟨lasts, advances⟩ := Parse.declaration_lasts nestingLimit
  obtain ⟨suffix, ended⟩ :=
    @Parse.declarationsUntil_ends (· == .eof) _ (· = .unended) rfl lasts advances rfl
      (fun _ _ => Parse.declaration_stops nestingLimit_pos) tokens tokens (Nat.le_refl _)
  refine ⟨suffix, ended.imp ?_ ?_⟩
  · rintro ⟨_, stopped, rfl⟩
    exact stopped
  · rintro ⟨ok, token, later, left, closes⟩
    exact ⟨ok, token, later, left, by simpa using closes⟩

/-- Without an end token, reading runs out of tokens. -/
theorem parseTokens_unended {tokens : List Token} (free : Without .eof tokens) :
    (parseTokens tokens).result = .error .unended := by
  obtain ⟨suffix, unended | ⟨_, token, later, left, isEnd⟩⟩ := parseTokens_ends tokens
  · exact unended
  · -- Otherwise it would have stopped at an end token, which is one of those it was given.
    exact absurd isEnd (free token (suffix.subset (by simp [left])))

/-- With an end token, reading gives a program and stops at the first one, whatever
stands behind it. -/
theorem parseTokens_at_end {before : List Token} {last : Token} (free : Without .eof before)
    (closed : last.kind = .eof) :
    ∃ program reports, ∀ after,
      parseTokens (before ++ last :: after) =
        { result := .ok program, rest := last :: after, reports } := by
  obtain ⟨seen, program, ok, suffix, taken⟩ := parseTokens_before_end free closed
  refine ⟨program, seen.reports, ?_⟩
  -- Reading leaves a token that closes the program, and no token before the end token does.
  have nothingLeft : seen.rest = [] := by
    have ends := (parseTokens_ends (before ++ [last])).2
    rw [taken [], ok] at ends
    rcases ends with impossible | ⟨_, token, later, left, isEnd⟩
    · cases impossible
    · cases remaining : seen.rest with
      | nil => rfl
      | cons first others =>
        rw [remaining, List.cons_append, List.cons.injEq] at left
        rw [← left.1] at isEnd
        exact absurd isEnd (free first (suffix.subset (by simp [remaining])))
  intro after
  rw [taken after, ok, nothingLeft, List.nil_append]

end

/-- A declaration that has room and is read before an end token gets past its first token, and
leaves that end token. -/
theorem declaration_proceeds {room : Nat} (roomy : 0 < room) {token : Token} {later : List Token}
    (inside : token.kind ≠ .eof) (ended : Grammar.Ended later) :
    ∃ found, (Parse.declaration room (token :: later)).result = .ok found ∧
      (Parse.declaration room (token :: later)).rest <:+ later ∧
      Grammar.Ended (Parse.declaration room (token :: later)).rest := by
  obtain ⟨before, last, after, rfl, closed, free⟩ := cut_at_first ended
  have freeToo : Without .eof (token :: before) := by
    intro other member
    rcases List.mem_cons.mp member with rfl | member
    · exact inside
    · exact free other member
  obtain ⟨seen, ⟨⟨found, ok⟩, suffix⟩ | ⟨lacking, _⟩, taken⟩ :=
    Parse.Proceeds.declaration room (token :: before) last freeToo closed
  · rw [← List.cons_append, taken after]
    refine ⟨found, ok, ?_, last, by simp, closed⟩
    -- What is left of the tokens before the end token is followed by that token as before.
    obtain ⟨skipped, same⟩ := suffix
    exact ⟨skipped, by rw [← List.append_assoc, same]; rfl⟩
  · exact absurd lacking (Nat.ne_of_gt roomy)

/--
Reading always gets further, and stops at the first end token.

It runs out of tokens exactly if there is no end token in the list. Otherwise it gives a program
and stops at the first end token. Neither the program nor the diagnostics depend on what stands
behind that token. Every declaration that has room and is read at another token gets past that
token: with a result, after a mistake, and where something inside it lacks room. A declaration
without room for itself takes no token and reports nothing, and so leaves both to the one around
it. At the outermost level there is room.
-/
theorem parseTokens_stops_at_first_end [Host] (tokens : List Token) :
    ((parseTokens tokens).result = .error .unended ↔ Without .eof tokens) ∧
    (∀ before last after, tokens = before ++ last :: after → Without .eof before →
      last.kind = .eof →
      ∃ program, (parseTokens tokens).result = .ok program ∧
        (parseTokens tokens).rest = last :: after ∧
        ∀ others, parseTokens (before ++ last :: others) =
          { result := .ok program, rest := last :: others,
            reports := (parseTokens tokens).reports }) ∧
    (∀ room token later, token.kind ≠ .eof → Grammar.Ended later →
      if room = 0 then
        Parse.declaration room (token :: later) =
          { result := .error .nestedTooDeeply, rest := token :: later, reports := [] }
      else
        ∃ found, (Parse.declaration room (token :: later)).result = .ok found ∧
          (Parse.declaration room (token :: later)).rest <:+ later ∧
          Grammar.Ended (Parse.declaration room (token :: later)).rest) ∧
    nestingLimit ≠ 0 := by
  refine ⟨⟨fun unended token member isEnd => ?_, parseTokens_unended⟩, ?_, ?_, ?_⟩
  · -- A list with an end token is read to a result.
    obtain ⟨before, last, after, rfl, closed, free⟩ := cut_at_first ⟨token, member, isEnd⟩
    obtain ⟨program, reports, read⟩ := parseTokens_at_end free closed
    rw [read after] at unended
    cases unended
  · rintro before last after rfl free closed
    obtain ⟨program, reports, read⟩ := parseTokens_at_end free closed
    refine ⟨program, by rw [read after], by rw [read after], ?_⟩
    intro others
    rw [read others, read after]
  · intro room token later inside ended
    split
    · next lacking =>
      rw [lacking]
      rfl
    · next roomy => exact declaration_proceeds (Nat.pos_of_ne_zero roomy) inside ended
  · exact Nat.ne_of_gt nestingLimit_pos

/-- A semicolon and a brace that nothing opens, and the end. -/
def strays : List Token :=
  [{ kind := .semicolon, lexeme := ";" }, { kind := .rightBrace, lexeme := "\x7d" },
    { kind := .eof, lexeme := "" }]

/-- A parenthesis that nothing opens. -/
def stray : Token :=
  { kind := .rightParen, lexeme := ")" }

set_option maxRecDepth 20000 in
/-- Strays are passed one mistake after the other, and those behind the end are not looked at. -/
theorem parseTokens_stops_at_first_end_strays :
    (parseTokens [stray]).result = .error .unended ∧
      (∃ program, (parseTokens (stray :: strays ++ [stray])).result = .ok program) ∧
      (parseTokens (stray :: strays ++ [stray])).reports.length = 2 ∧
      (parseTokens (stray :: strays)).reports = (parseTokens (stray :: strays ++ [stray])).reports ∧
      (Parse.declaration 1 (stray :: strays)).rest <:+ strays := by
  have free : Without .eof (stray :: strays.take 2) := by decide
  have reports : (parseTokens (stray :: strays ++ [stray])).reports.length = 2 := rfl
  -- The end token stands third, so what is behind it makes no difference.
  obtain ⟨_, stops, _⟩ := parseTokens_stops_at_first_end (stray :: strays ++ [stray])
  obtain ⟨program, result, _, others⟩ :=
    stops (stray :: strays.take 2) { kind := .eof, lexeme := "" } [stray] rfl free rfl
  have short : stray :: strays.take 2 ++ [{ kind := .eof, lexeme := "" }] = stray :: strays := rfl
  have alone := others []
  rw [short] at alone
  have ended : Grammar.Ended strays := ⟨{ kind := .eof, lexeme := "" }, by simp [strays], rfl⟩
  -- A single declaration gets past its first token.
  obtain ⟨_, _, proceeds, _⟩ := parseTokens_stops_at_first_end (stray :: strays)
  obtain ⟨_, _, further, _⟩ := proceeds 1 stray strays (by decide) ended
  refine ⟨(parseTokens_stops_at_first_end [stray]).1.mpr (by decide), ⟨program, result⟩, reports,
    ?_, further⟩
  rw [alone]

/-- A declaration without room stays at its token, which is then reported by the block around it. -/
theorem declaration_without_room_stays :
    ¬ (Parse.declaration 0 (stray :: strays)).rest <:+ strays ∧
      (Parse.declaration 1 ({ kind := .leftBrace, lexeme := "\x7b" } :: stray :: strays)).reports =
        [.atToken stray .nestedTooDeeply] := by
  constructor
  · intro further
    exact absurd further.length_le (by decide)
  · rfl

end LoxLang
