import LoxLang.Proofs.Grammar.Ending
import LoxLang.Proofs.Grammar.Rules

/-!
What is read without a report is derived by the grammar, and nests no deeper than the
room there was.
-/

namespace LoxLang.Grammar

/-- The operators of a level as the parser tells them apart. -/
def Level.accepts : Level → Kind → Bool
  | equality => Kind.isEquality
  | comparison => Kind.isComparison
  | term => Kind.isTerm
  | factor => Kind.isFactor

/-- The parser accepts exactly the operators that the grammar lists. -/
theorem Level.accepts_iff {level : Level} {kind : Kind} :
    level.accepts kind = true ↔ kind ∈ level.operators := by
  cases level <;> cases kind <;> decide

/-- The parser accepts exactly the prefix operators that the grammar lists. -/
theorem isPrefix_iff {kind : Kind} : kind.isPrefix = true ↔ kind ∈ prefixOperators := by
  cases kind <;> decide

/-- A step whose quiet readings are derived by a rule, and leave so many levels of
the room it has. -/
def Follows (step : Parse Expr) (rule : Rule) (levels room : Nat) : Prop :=
  ∀ tokens e rest, step.Reads tokens e rest →
    ∃ used, tokens = used ++ rest ∧ Derives rule used e ∧ e.nesting + levels ≤ room

/-- What a chain reads behind its left operand belongs to the same chain. -/
theorem chainFrom_follows {operand : Parse Expr} {level : Level} {levels room : Nat}
    (follows : Follows operand level.operand levels room) {clock used tokens rest : List Token}
    {left e : Expr} (derived : Derives (.binary level) used left)
    (bounded : left.nesting + levels ≤ room)
    (read : (Parse.chainFrom level.accepts operand clock left).Reads tokens e rest) :
    ∃ more, tokens = more ++ rest ∧ Derives (.binary level) (used ++ more) e ∧
      e.nesting + levels ≤ room := by
  -- The tokens taken so far grow by an operator and an operand in each round.
  induction clock generalizing used tokens left with
  | nil => exact absurd read Parse.not_reads_overrun
  | cons tick clock ih =>
    obtain ⟨found, between, accepted, followed⟩ := Parse.reads_bind_iff.mp read
    obtain ⟨token, later, rfl, taken⟩ := Parse.reads_accept?_iff.mp accepted
    split at taken
    · next operates =>
      obtain ⟨rfl, rfl⟩ := taken
      obtain ⟨right, after, operandRead, continued⟩ := Parse.reads_bind_iff.mp followed
      obtain ⟨taken, rfl, rightDerived, rightBounded⟩ := follows _ _ _ operandRead
      have longer : Derives (.binary level) (used ++ token :: taken) (.binary left token right) :=
        .chain derived (Level.accepts_iff.mp operates) rightDerived
      obtain ⟨more, rfl, wholeDerived, wholeBounded⟩ :=
        ih longer (by simp only [Expr.nesting]; omega) continued
      exact ⟨token :: taken ++ more, by simp, by simpa using wholeDerived, wholeBounded⟩
    · obtain ⟨rfl, rfl⟩ := taken
      obtain ⟨rfl, rfl⟩ := Parse.reads_pure_iff.mp followed
      exact ⟨[], rfl, by simpa using derived, bounded⟩

/-- A chain over operands that follow their rule follows the rule of its level. -/
theorem Follows.chain {operand : Parse Expr} {level : Level} {levels room : Nat}
    (follows : Follows operand level.operand levels room) :
    Follows (Parse.chain level.accepts operand) (.binary level) levels room := by
  -- The first operand alone is a chain, and the loop makes it longer.
  intro tokens e rest read
  obtain ⟨first, between, firstRead, continued⟩ := Parse.reads_bind_iff.mp read
  obtain ⟨used, rfl, derived, bounded⟩ := follows _ _ _ firstRead
  obtain ⟨more, rfl, wholeDerived, wholeBounded⟩ :=
    chainFrom_follows follows (.operand derived) bounded continued
  exact ⟨used ++ more, by simp, wholeDerived, wholeBounded⟩

/-- The four levels follow the rule of the loosest one. -/
theorem Follows.equality {operand : Parse Expr} {levels room : Nat}
    (follows : Follows operand .unary levels room) :
    Follows (Parse.equality operand) (.binary .equality) levels room := by
  -- The operands of each level are the chains of the next tighter one.
  have unary : Follows operand (Level.operand .factor) levels room := follows
  have factor : Follows _ (Level.operand .term) levels room := unary.chain
  have term : Follows _ (Level.operand .comparison) levels room := factor.chain
  have comparison : Follows _ (Level.operand .equality) levels room := term.chain
  exact comparison.chain

/-- A primary follows its rule if what stands between parentheses does. -/
theorem Follows.primary {inner : Parse Expr} {room : Nat}
    (follows : Follows inner .assignment 2 room) :
    Follows (Parse.primary inner) .primary 0 room := by
  intro tokens e rest read
  cases tokens with
  | nil => simp [Parse.primary, Parse.reads_bind_iff] at read
  | cons token later =>
    rw [Parse.Reads, Parse.primary_cons] at read
    -- Every primary without parentheses is one token, and flat.
    have single {found : Expr} (derived : Derives .primary [token] found) (flat : found.nesting = 0)
        (same : Parsed.mk (.ok found) later [] = { result := .ok e, rest, reports := [] }) :
        ∃ used, token :: later = used ++ rest ∧ Derives .primary used e ∧ e.nesting + 0 ≤ room := by
      obtain ⟨ok, rfl, _⟩ := (Parsed.mk.injEq ..).mp same
      obtain rfl := Except.ok.inj ok
      exact ⟨[token], rfl, derived, by omega⟩
    cases kind : token.kind with
    | leftParen =>
      -- The parentheses stay in the tree, so their two levels are paid for here.
      rw [kind] at read
      obtain ⟨held, between, innerRead, followed⟩ := Parse.reads_bind_iff.mp read
      obtain ⟨closing, after, closes, wrapped⟩ := Parse.reads_bind_iff.mp followed
      obtain ⟨rfl, closingKind⟩ := Parse.reads_expect_iff.mp closes
      obtain ⟨rfl, rfl⟩ := Parse.reads_pure_iff.mp wrapped
      obtain ⟨used, rfl, derived, bounded⟩ := follows _ _ _ innerRead
      exact ⟨token :: used ++ [closing], by simp, .grouping kind derived closingKind, bounded⟩
    | kwFalse => exact single (.falsity kind) rfl (by rw [kind] at read; exact read)
    | kwTrue => exact single (.truth kind) rfl (by rw [kind] at read; exact read)
    | kwNil => exact single (.nothing kind) rfl (by rw [kind] at read; exact read)
    | number => exact single (.number kind) rfl (by rw [kind] at read; exact read)
    | string => exact single (.string kind) rfl (by rw [kind] at read; exact read)
    | identifier => exact single (.use kind) rfl (by rw [kind] at read; exact read)
    | _ => simp [kind] at read

/-- A derivation of a variable is that of one identifier, by whichever rule. -/
theorem Derives.of_use {rule : Rule} {used : List Token} {name : Mark}
    (derived : Derives rule used (.use name)) :
    ∃ token : Token, used = [token] ∧ token.kind = .identifier ∧ name = token := by
  -- The rules above a primary add neither tokens nor a node, unless they build another tree.
  generalize variable_ : Expr.use name = e at derived
  induction derived with
  | use kind =>
    cases variable_
    exact ⟨_, rfl, kind, rfl⟩
  | equality _ ih | operand _ ih | primary _ ih => exact ih variable_
  | _ => cases variable_

/-- Assignments and operands follow their rules; an operand leaves one level of its
room, an assignment two. -/
theorem follows_assignment_and_prefixed (room : Nat) :
    Follows (Parse.assignment room) .assignment 2 room ∧
      Follows (Parse.prefixed room) .unary 1 room := by
  induction room with
  | zero =>
    constructor <;> intro tokens e rest read
    · rw [Parse.assignment] at read
      exact absurd read Parse.not_reads_stop
    · rw [Parse.prefixed] at read
      exact absurd read Parse.not_reads_stop
  | succ room ih =>
    -- Both are read with less room, so they follow their rules as parts of one another.
    obtain ⟨assignments, operands⟩ := ih
    constructor <;> intro tokens e rest read
    · rw [Parse.assignment] at read
      obtain ⟨left, between, leftRead, followed⟩ := Parse.reads_bind_iff.mp read
      obtain ⟨used, rfl, derived, bounded⟩ := operands.equality _ _ _ leftRead
      obtain ⟨found, after, accepted, decided⟩ := Parse.reads_bind_iff.mp followed
      obtain ⟨token, later, rfl, taken⟩ := Parse.reads_accept?_iff.mp accepted
      split at taken
      · next equals =>
        -- What stands before the sign turns out to be a target only now.
        obtain ⟨rfl, rfl⟩ := taken
        obtain ⟨value, behind, valueRead, assigned⟩ := Parse.reads_bind_iff.mp decided
        obtain ⟨more, rfl, valueDerived, valueBounded⟩ := assignments _ _ _ valueRead
        split at assigned
        · next name =>
          obtain ⟨target, rfl, isName, rfl⟩ := derived.of_use
          obtain ⟨rfl, rfl⟩ := Parse.reads_pure_iff.mp assigned
          exact ⟨target :: token :: more, by simp, .assign isName (by simpa using equals)
            valueDerived, by simp only [Expr.nesting]; omega⟩
        · -- Any other target is reported, so the reading was not quiet.
          simp [Parse.reads_bind_iff] at assigned
      · obtain ⟨rfl, rfl⟩ := taken
        obtain ⟨rfl, rfl⟩ := Parse.reads_pure_iff.mp decided
        exact ⟨used, rfl, .equality derived, by omega⟩
    · rw [Parse.prefixed] at read
      obtain ⟨found, between, accepted, followed⟩ := Parse.reads_bind_iff.mp read
      obtain ⟨token, later, rfl, taken⟩ := Parse.reads_accept?_iff.mp accepted
      split at taken
      · next operates =>
        obtain ⟨rfl, rfl⟩ := taken
        obtain ⟨operand, behind, operandRead, wrapped⟩ := Parse.reads_bind_iff.mp followed
        obtain ⟨rfl, rfl⟩ := Parse.reads_pure_iff.mp wrapped
        obtain ⟨used, rfl, derived, bounded⟩ := operands _ _ _ operandRead
        exact ⟨token :: used, rfl, .prefixed (isPrefix_iff.mp operates) derived,
          by simp only [Expr.nesting]; omega⟩
      · obtain ⟨rfl, rfl⟩ := taken
        obtain ⟨used, same, derived, bounded⟩ := assignments.primary _ _ _ followed
        exact ⟨used, same, .primary derived, by omega⟩

/-- A list that an end token closes somewhere. -/
def Ended (tokens : List Token) : Prop :=
  ∃ token ∈ tokens, token.kind = .eof

/-- An end token is still to come, so there is a token. -/
theorem Ended.exists_cons {tokens : List Token} (ended : Ended tokens) :
    ∃ next tail, tokens = next :: tail := by
  obtain ⟨last, member, _⟩ := ended
  exact List.exists_cons_of_ne_nil (List.ne_nil_of_mem member)

/-- An end token further back still ends a list. -/
theorem Ended.append {tokens : List Token} (ended : Ended tokens) (front : List Token) :
    Ended (front ++ tokens) := by
  obtain ⟨last, member, isLast⟩ := ended
  exact ⟨last, List.mem_append_right front member, isLast⟩

/-- Behind another token, the end token is still to come. -/
theorem Ended.tail {token : Token} {later : List Token} (ended : Ended (token :: later))
    (other : token.kind ≠ .eof) : Ended later := by
  obtain ⟨last, member, isLast⟩ := ended
  rcases List.mem_cons.mp member with rfl | member
  · exact absurd isLast other
  · exact ⟨last, member, isLast⟩

/-- A step that stays before the end token leaves it there. -/
theorem Ended.after {α : Type} {step : Parse α} (stays : step.StaysBefore .eof)
    {tokens rest : List Token} {value : α} (ended : Ended tokens)
    (read : step.Reads tokens value rest) : Ended rest := by
  have kept := (stays.of_mem ended).2
  rw [read] at kept
  exact kept

/-- A quiet reading with recovery is a quiet reading without it, as every mistake is reported. -/
theorem reads_of_recovering {α : Type} {step : Parse α} (stays : step.StaysBefore .eof)
    {tokens rest : List Token} {found : Option α} (ended : Ended tokens)
    (read : (Parse.recovering step).Reads tokens found rest) :
    ∃ value, found = some value ∧ step.Reads tokens value rest := by
  have orderly := (stays.of_mem ended).1
  rcases tried : step tokens with ⟨result, between, reports⟩
  rw [tried] at orderly
  simp only [Parse.Reads, Parse.recovering, tried] at read
  cases result with
  | ok value =>
    simp only [Parsed.mk.injEq, Except.ok.injEq] at read
    obtain ⟨rfl, rfl, rfl⟩ := read
    exact ⟨value, rfl, tried⟩
  | error stop =>
    cases stop with
    | refused =>
      -- A refusal leaves a report behind.
      refine absurd ?_ (orderly.2.2 rfl)
      simp only [Parse.recovered] at read
      split at read <;> simp_all
    | nestedTooDeeply =>
      -- The limit is reported on the spot.
      cases between with
      | nil => simp at read
      | cons token later =>
        simp only [Parse.recovered] at read
        split at read <;> simp at read
    | unended => exact absurd rfl orderly.1
    | outOfRounds => exact absurd rfl orderly.2.1

/-- A step whose quiet readings are declarations of the grammar that fit into so much room. -/
def Declares (item : Parse (Option Stmt)) (room : Nat) : Prop :=
  ∀ tokens found rest, Ended tokens → item.Reads tokens found rest →
    ∃ stmt used, found = some stmt ∧ tokens = used ++ rest ∧ Declaration used stmt ∧
      stmt.depth ≤ room

/-- Declarations that are read quietly are derived by the grammar, and end at a
token that closes them. -/
theorem declarationsUntil_sound {closing : Kind → Bool} {item : Parse (Option Stmt)} {room : Nat}
    (stays : item.StaysBefore .eof) (declares : Declares item room) {clock tokens rest : List Token}
    {found : List Stmt} (ended : Ended tokens)
    (read : (Parse.declarationsUntil closing item clock).Reads tokens found rest) :
    ∃ used last later, tokens = used ++ rest ∧ Declarations used found ∧ rest = last :: later ∧
      closing last.kind = true ∧ Stmt.depths found ≤ room := by
  -- The induction is on the clock; a quiet reading never sees it run out.
  induction clock generalizing tokens found with
  | nil => exact absurd read Parse.not_reads_overrun
  | cons tick clock ih =>
    obtain ⟨token, between, looked, decided⟩ := Parse.reads_bind_iff.mp read
    obtain ⟨rfl, later, rfl⟩ := Parse.reads_peek_iff.mp looked
    split at decided
    · next closes =>
      obtain ⟨rfl, rfl⟩ := Parse.reads_pure_iff.mp decided
      exact ⟨[], token, later, rfl, .none, rfl, closes, Nat.zero_le _⟩
    · obtain ⟨first, after, firstRead, followed⟩ := Parse.reads_bind_iff.mp decided
      obtain ⟨others, behind, othersRead, joined⟩ := Parse.reads_bind_iff.mp followed
      obtain ⟨rfl, rfl⟩ := Parse.reads_pure_iff.mp joined
      have still : Ended after := ended.after stays firstRead
      obtain ⟨stmt, used, rfl, same, derived, shallow⟩ := declares _ _ _ ended firstRead
      obtain ⟨more, last, rest, rfl, othersDerived, rfl, closes, othersShallow⟩ :=
        ih still othersRead
      refine ⟨used ++ more, last,
        rest, by simp [same], .more derived othersDerived, rfl, closes, ?_⟩
      simp only [Option.toList_some, List.singleton_append, Stmt.depths]
      omega

/-- An expression and the semicolon behind it, read quietly, are derived as such. -/
theorem reads_finished {next : Expr → Stmt} {room : Nat} {fault : Fault} {tokens rest : List Token}
    {stmt : Stmt}
    (read : (Parse.assignment room >>= fun e => Parse.expect .semicolon fault >>= fun _ =>
      pure (next e)).Reads tokens stmt rest) :
    ∃ e used semicolon, stmt = next e ∧ tokens = used ++ [semicolon] ++ rest ∧
      Derives .assignment used e ∧
      semicolon.kind = .semicolon ∧ e.nesting + 2 ≤ room := by
  obtain ⟨e, between, expressionRead, followed⟩ := Parse.reads_bind_iff.mp read
  obtain ⟨semicolon, after, closes, wrapped⟩ := Parse.reads_bind_iff.mp followed
  obtain ⟨rfl, kind⟩ := Parse.reads_expect_iff.mp closes
  obtain ⟨rfl, rfl⟩ := Parse.reads_pure_iff.mp wrapped
  obtain ⟨used, rfl, derived, bounded⟩ :=
    (follows_assignment_and_prefixed room).1 _ _ _ expressionRead
  exact ⟨e, used, semicolon, rfl, by simp, derived, kind, bounded⟩

/-- A variable declaration that is read quietly behind its word is derived by the grammar. -/
theorem variableDeclaration_sound {word : Token} (isWord : word.kind = .kwVar) {room : Nat}
    {tokens rest : List Token} {stmt : Stmt}
    (read : (Parse.variableDeclaration room).Reads tokens stmt rest) :
    ∃ used, word :: tokens = used ++ rest ∧ Declaration used stmt ∧ stmt.depth ≤ room + 1 := by
  -- The token behind the name tells whether there is a value.
  obtain ⟨name, between, named, followed⟩ := Parse.reads_bind_iff.mp read
  obtain ⟨rfl, isName⟩ := Parse.reads_expect_iff.mp named
  obtain ⟨found, after, accepted, decided⟩ := Parse.reads_bind_iff.mp followed
  obtain ⟨token, later, rfl, taken⟩ := Parse.reads_accept?_iff.mp accepted
  split at taken
  · next equals =>
    obtain ⟨rfl, rfl⟩ := taken
    obtain ⟨e, used, semicolon, rfl, rfl, derived, closes, bounded⟩ := reads_finished decided
    exact ⟨word :: name :: token :: used ++ [semicolon], by simp,
      .declareAs isWord isName (by simpa using equals) derived closes,
      by simp only [Stmt.depth]; omega⟩
  · obtain ⟨rfl, rfl⟩ := taken
    obtain ⟨semicolon, behind, closes, wrapped⟩ := Parse.reads_bind_iff.mp decided
    obtain ⟨same, kind⟩ := Parse.reads_expect_iff.mp closes
    obtain ⟨rfl, rfl⟩ := Parse.reads_pure_iff.mp wrapped
    exact ⟨[word, name, semicolon], by simp [same], .declare isWord isName kind,
      by simp [Stmt.depth]⟩

/-- A declaration that is read quietly is derived by the grammar if those inside it are. -/
theorem declarationOver_sound {item : Parse (Option Stmt)} {room : Nat}
    (stays : item.StaysBefore .eof) (declares : Declares item room) {tokens rest : List Token}
    {stmt : Stmt} (ended : Ended tokens)
    (read : (Parse.declarationOver room item).Reads tokens stmt rest) :
    ∃ used, tokens = used ++ rest ∧ Declaration used stmt ∧ stmt.depth ≤ room + 1 := by
  cases tokens with
  | nil => simp [Ended] at ended
  | cons token later =>
    rw [Parse.Reads, Parse.declarationOver_cons] at read
    -- The branches are told by the first token: a variable, a print, a block or an expression.
    split at read
    · next declaring => exact variableDeclaration_sound declaring read
    · split at read
      · next printing =>
        obtain ⟨e, used, semicolon, rfl, rfl, derived, closes, bounded⟩ := reads_finished read
        exact ⟨token :: used ++ [semicolon], by simp, .print printing derived closes,
          by simp only [Stmt.depth]; omega⟩
      · split at read
        · next opening =>
          obtain ⟨body, between, bodyRead, wrapped⟩ := Parse.reads_bind_iff.mp read
          obtain ⟨rfl, rfl⟩ := Parse.reads_pure_iff.mp wrapped
          obtain ⟨found, after, foundRead, followed⟩ := Parse.reads_bind_iff.mp bodyRead
          obtain ⟨closing, behind, closes, returned⟩ := Parse.reads_bind_iff.mp followed
          obtain ⟨rfl, closingKind⟩ := Parse.reads_expect_iff.mp closes
          obtain ⟨rfl, rfl⟩ := Parse.reads_pure_iff.mp returned
          -- The brace is not the end token, so that is still to come.
          have still : Ended later := ended.tail (by simp [opening])
          obtain ⟨used, _, _, rfl, derived, _, _, shallow⟩ :=
            declarationsUntil_sound stays declares still foundRead
          exact ⟨token :: used ++ [closing], by simp, .block opening derived closingKind,
            by simp only [Stmt.depth]; omega⟩
        · obtain ⟨e, used, semicolon, rfl, same, derived, closes, bounded⟩ := reads_finished read
          exact ⟨used ++ [semicolon], same, .expression derived closes,
            by simp only [Stmt.depth]; omega⟩

/-- A declaration that is read quietly is derived by the grammar and fits into the
room there was. -/
theorem declares_declaration (room : Nat) : Declares (Parse.declaration room) room := by
  induction room with
  | zero =>
    intro tokens found rest _ read
    exact absurd read Parse.not_reads_stop
  | succ room ih =>
    intro tokens found rest ended read
    -- What recovery passes on quietly, the declaration read itself.
    have proceeds := Parse.Proceeds.declaration room
    obtain ⟨stmt, rfl, plainRead⟩ :=
      reads_of_recovering (Parse.StaysBefore.declarationOver room proceeds) ended read
    obtain ⟨used, same, derived, shallow⟩ :=
      declarationOver_sound proceeds.staysBefore ih ended plainRead
    exact ⟨stmt, used, rfl, same, derived, shallow⟩

/--
A token list without a diagnostic is a program of the grammar.

Whatever stands behind the end token is left.
-/
theorem parseTokens_sound [Host] {tokens : List Token} {last : Token} {tail : List Token}
    (free : Without .eof tokens) (closed : last.kind = .eof)
    (quiet : (parseTokens (tokens ++ last :: tail)).reports = []) :
    ∃ program, parseTokens (tokens ++ last :: tail) =
      { result := .ok program, rest := last :: tail, reports := [] } ∧
      Declarations tokens program ∧ WithinNestingLimit program := by
  -- Reading stays before the end token, and it is quiet, so what it gives is a
  -- quiet reading up to there.
  have proceeds := Parse.Proceeds.declaration nestingLimit
  obtain ⟨seen, program, ok, suffix, taken⟩ := parseTokens_before_end free closed
  have whole := taken tail
  have read : Parse.program.Reads (tokens ++ last :: tail) program (seen.rest ++ last :: tail) := by
    rw [whole] at quiet
    rw [Parse.Reads, ← ok, ← quiet]
    exact whole
  obtain ⟨used, final, later, same, derived, left, closes, shallow⟩ :=
    declarationsUntil_sound proceeds.staysBefore (declares_declaration nestingLimit)
      ⟨last, by simp, closed⟩ read
  -- Only an end token closes a program, and there is none among the tokens before it.
  have nothingLeft : seen.rest = [] := by
    cases remaining : seen.rest with
    | nil => rfl
    | cons token others =>
      rw [remaining, List.cons_append, List.cons.injEq] at left
      have isEnd : token.kind = .eof := by simpa [left.1] using closes
      exact absurd isEnd (free token (suffix.subset (by simp [remaining])))
  rw [nothingLeft, List.nil_append] at read same
  obtain rfl := List.append_cancel_right same
  exact ⟨program, read, derived, shallow⟩

end LoxLang.Grammar
