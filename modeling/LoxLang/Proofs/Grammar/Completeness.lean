import LoxLang.Proofs.Grammar.Soundness

/-!
What the grammar derives is read without a report, as long as it nests no deeper than
the room there is.
-/

namespace LoxLang.Grammar

/-- Whether a token of a kind would go on with what a rule has derived so far. -/
def Rule.goesOn : Rule → Kind → Bool
  | .unary, _ | .primary, _ => false
  | .binary .factor, kind => kind.isFactor
  | .binary .term, kind => kind.isTerm || kind.isFactor
  | .binary .comparison, kind => kind.isComparison || kind.isTerm || kind.isFactor
  | .binary .equality, kind => kind.isEquality || kind.isComparison || kind.isTerm || kind.isFactor
  | .assignment, kind =>
    kind == .equal || kind.isEquality || kind.isComparison || kind.isTerm || kind.isFactor

/-- A chain goes on at its operators, and wherever its operands go on. -/
theorem Rule.goesOn_binary (level : Level) (kind : Kind) :
    (Rule.binary level).goesOn kind = (level.accepts kind || level.operand.goesOn kind) := by
  cases level <;> cases kind <;> rfl

/-- No operand goes on at an operator of the level around it. -/
theorem Level.operand_stops {level : Level} {kind : Kind} (operates : kind ∈ level.operators) :
    level.operand.goesOn kind = false := by
  revert operates
  cases level <;> cases kind <;> decide

/-- A step that reads whatever a rule derives, up to a token that does not go on with it, if
it leaves enough room. -/
def Covers (step : Parse Expr) (rule : Rule) (levels room : Nat) : Prop :=
  ∀ used e next later, Derives rule used e → e.nesting + levels ≤ room →
    rule.goesOn next.kind = false →
    step.Reads (used ++ next :: later) e (next :: later)

/--
A chain reads a derived chain, and then goes on from there.

The clock of the loop counts all tokens, so any clock that is long enough for the rest must do.
-/
theorem chain_reads_on {operand : Parse Expr} {level : Level} {levels room : Nat}
    (covers : Covers operand level.operand levels room) {used : List Token} {left : Expr}
    (derived : Derives (.binary level) used left) (bounded : left.nesting + levels ≤ room)
    {next : Token} {later rest : List Token} {e : Expr}
    (stops : level.operand.goesOn next.kind = false)
    (continues : ∀ clock : List Token, (next :: later).length ≤ clock.length →
      (Parse.chainFrom level.accepts operand clock left).Reads (next :: later) e rest) :
    (Parse.chain level.accepts operand).Reads (used ++ next :: later) e rest := by
  -- The derivation leans to the left, so the last operator comes off first.
  generalize chained : Rule.binary level = rule at derived
  induction derived generalizing next later with
  | operand first =>
    cases chained
    exact Parse.reads_bind_iff.mpr
      ⟨_, _, covers _ _ _ _ first bounded stops, continues _ (Nat.le_refl _)⟩
  | @chain _ operator ts us shorter right _ operates rightDerived ih _ =>
    cases chained
    simp only [Expr.nesting] at bounded
    have joined : (Parse.chain level.accepts operand).Reads
        (ts ++ operator :: (us ++ next :: later)) e rest := by
      -- Behind the shorter chain the loop takes the operator and its operand, and
      -- then goes on as before.
      refine ih (by omega) (Level.operand_stops operates) ?_ rfl
      intro clock long
      obtain ⟨tick, clock, rfl⟩ := List.exists_cons_of_length_pos (Nat.zero_lt_of_lt long)
      simp only [List.length_cons, List.length_append, Nat.add_le_add_iff_right] at long
      have rightRead := covers us right next later rightDerived (by omega) stops
      rw [Parse.Reads, Parse.chainFrom_cons, if_pos (Level.accepts_iff.mpr operates),
        rightRead.bind_eq]
      exact continues clock (by simp only [List.length_cons]; omega)
    simpa using joined
  | _ => cases chained

/-- A chain over operands that are read reads the chains of its level. -/
theorem Covers.chain {operand : Parse Expr} {level : Level} {levels room : Nat}
    (covers : Covers operand level.operand levels room) :
    Covers (Parse.chain level.accepts operand) (.binary level) levels room := by
  intro used e next later derived bounded stops
  rw [Rule.goesOn_binary, Bool.or_eq_false_iff] at stops
  refine chain_reads_on covers derived bounded stops.2 ?_
  -- Behind the whole chain there is no operator of its level, so the loop ends.
  intro clock long
  obtain ⟨tick, clock, rfl⟩ := List.exists_cons_of_length_pos (Nat.zero_lt_of_lt long)
  rw [Parse.Reads, Parse.chainFrom_cons, stops.1]
  rfl

/-- The four levels read the chains of the loosest one. -/
theorem Covers.equality {operand : Parse Expr} {levels room : Nat}
    (covers : Covers operand .unary levels room) :
    Covers (Parse.equality operand) (.binary .equality) levels room := by
  have unary : Covers operand (Level.operand .factor) levels room := covers
  have factor : Covers _ (Level.operand .term) levels room := unary.chain
  have term : Covers _ (Level.operand .comparison) levels room := factor.chain
  have comparison : Covers _ (Level.operand .equality) levels room := term.chain
  exact comparison.chain

/-- A primary is read if what stands between its parentheses is. -/
theorem Covers.primary {inner : Parse Expr} {room : Nat}
    (covers : Covers inner .assignment 2 room) :
    Covers (Parse.primary inner) .primary 0 room := by
  intro used e next later derived bounded _
  cases derived with
  | @grouping opening closing ts e opens innerDerived closes =>
    -- No expression goes on at a closing parenthesis.
    have innerRead := covers ts e closing (next :: later) innerDerived bounded (by rw [closes]; rfl)
    have closed : (Parse.expect .rightParen .unclosedGrouping).Reads
        (closing :: next :: later) closing
        (next :: later) := Parse.reads_expect_iff.mpr ⟨rfl, closes⟩
    rw [Parse.Reads, List.cons_append, List.cons_append, Parse.primary_cons, opens]
    simp only [List.append_assoc, List.singleton_append]
    rw [innerRead.bind_eq, closed.bind_eq]
    rfl
  | truth kind | falsity kind | nothing kind | number kind | string kind | use kind =>
    rw [Parse.Reads, List.singleton_append, Parse.primary_cons, kind]

/-- The kinds of token that an expression can begin with. -/
def opensExpression : Kind → Bool
  | .bang | .minus | .kwTrue | .kwFalse | .kwNil | .number | .string | .identifier | .leftParen =>
    true
  | _ => false

/-- Every expression begins with a token that opens one. -/
theorem Derives.opens {rule : Rule} {used : List Token} {e : Expr} (derived : Derives rule used e) :
    ∃ token more, used = token :: more ∧ opensExpression token.kind = true := by
  -- A chain begins with its first operand, and every other rule with a token of its
  -- own or with its only part.
  induction derived with
  | assign isName | use isName => exact ⟨_, _, rfl, by rw [isName]; rfl⟩
  | equality _ ih | operand _ ih | primary _ ih => exact ih
  | chain _ _ _ ih _ =>
    obtain ⟨token, more, rfl, opens⟩ := ih
    exact ⟨token, _, rfl, opens⟩
  | prefixed operates =>
    refine ⟨_, _, rfl, ?_⟩
    simp only [prefixOperators, List.mem_cons, List.not_mem_nil, or_false] at operates
    rcases operates with kind | kind <;> rw [kind] <;> rfl
  | truth kind | falsity kind | nothing kind | number kind | string kind | grouping kind =>
    exact ⟨_, _, rfl, by rw [kind]; rfl⟩

/-- No primary begins with a prefix operator. -/
theorem Derives.primary_unprefixed {used : List Token} {e : Expr}
    (derived : Derives .primary used e) :
    ∃ token more, used = token :: more ∧ token.kind.isPrefix = false := by
  cases derived with
  | truth kind | falsity kind | nothing kind | number kind | string kind | use kind
  | grouping kind =>
    exact ⟨_, _, rfl, by rw [kind]; rfl⟩

/-- Assignments and operands are read if enough room is left: one level for an
operand, two for an assignment. -/
theorem covers_assignment_and_prefixed (room : Nat) :
    Covers (Parse.assignment room) .assignment 2 room ∧
      Covers (Parse.prefixed room) .unary 1 room := by
  -- The induction is on the room, which assignments and operands share.
  induction room with
  | zero => constructor <;> intro used e next later _ bounded <;> omega
  | succ room ih =>
    obtain ⟨assignments, operands⟩ := ih
    constructor <;> intro used e next later derived bounded stops
    · rw [Parse.assignment]
      refine Parse.reads_bind_iff.mpr ?_
      cases derived with
      | @assign name equals ts value isName isEquals valueDerived =>
        simp only [Expr.nesting] at bounded
        -- The target is first read as an operand that stops at the sign.
        have target : Derives (.binary .equality) [name] (.use name) :=
          .operand (.operand (.operand (.operand (.primary (.use isName)))))
        have targetRead := operands.equality [name] _ equals (ts ++ next :: later) target
          (by simp only [Expr.nesting]; omega) (by rw [isEquals]; rfl)
        have valueRead := assignments ts value next later valueDerived (by omega) stops
        refine ⟨_, _, targetRead,
          Parse.reads_bind_iff.mpr ⟨some equals, ts ++ next :: later, ?_, ?_⟩⟩
        · exact Parse.reads_accept?_iff.mpr ⟨equals, _, rfl, by simp [isEquals]⟩
        · exact Parse.reads_bind_iff.mpr ⟨_, _, valueRead, Parse.reads_pure_iff.mpr ⟨rfl, rfl⟩⟩
      | equality derived =>
        -- The token behind the operand is no equals sign, so there is no assignment.
        simp only [Rule.goesOn, Bool.or_eq_false_iff, beq_eq_false_iff_ne] at stops
        obtain ⟨⟨⟨⟨unequal, noEquality⟩, noComparison⟩, noTerm⟩, noFactor⟩ := stops
        have operandRead := operands.equality used e next later derived (by omega)
          (by simp [Rule.goesOn, noEquality, noComparison, noTerm, noFactor])
        refine ⟨_, _, operandRead, Parse.reads_bind_iff.mpr ⟨none, next :: later, ?_, ?_⟩⟩
        · exact Parse.reads_accept?_iff.mpr ⟨next, later, rfl, by simp [unequal]⟩
        · exact Parse.reads_pure_iff.mpr ⟨rfl, rfl⟩
    · rw [Parse.prefixed]
      refine Parse.reads_bind_iff.mpr ?_
      cases derived with
      | @prefixed operator ts operand operates operandDerived =>
        simp only [Expr.nesting] at bounded
        have operandRead := operands ts operand next later operandDerived (by omega) rfl
        refine ⟨some operator, ts ++ next :: later, ?_, ?_⟩
        · exact Parse.reads_accept?_iff.mpr ⟨operator, _, rfl, by simp [isPrefix_iff.mpr operates]⟩
        · exact Parse.reads_bind_iff.mpr ⟨_, _, operandRead, Parse.reads_pure_iff.mpr ⟨rfl, rfl⟩⟩
      | primary derived =>
        obtain ⟨token, more, rfl, unprefixed⟩ := derived.primary_unprefixed
        refine ⟨none, token :: more ++ next :: later, ?_, ?_⟩
        · exact Parse.reads_accept?_iff.mpr ⟨token, _, rfl, by simp [unprefixed]⟩
        · exact assignments.primary _ e next later derived (by omega) rfl

/-- An expression of the grammar and the semicolon behind it are read. -/
theorem reads_of_finished {next : Expr → Stmt} {room : Nat} {fault : Fault} {used : List Token}
    {semicolon : Token} {e : Expr} (derived : Derives .assignment used e)
    (bounded : e.nesting + 2 ≤ room) (closes : semicolon.kind = .semicolon) (rest : List Token) :
    (Parse.assignment room >>= fun e => Parse.expect .semicolon fault >>= fun _ =>
      pure (next e)).Reads
      (used ++ semicolon :: rest) (next e) rest := by
  have expressionRead :=
    (covers_assignment_and_prefixed room).1 used e semicolon rest derived bounded
      (by rw [closes]; rfl)
  exact Parse.reads_bind_iff.mpr ⟨_, _, expressionRead, Parse.reads_bind_iff.mpr
    ⟨semicolon, rest, Parse.reads_expect_iff.mpr ⟨rfl, closes⟩,
      Parse.reads_pure_iff.mpr ⟨rfl, rfl⟩⟩⟩

/-- The kinds of token that no declaration begins with. -/
def closesDeclarations : Kind → Bool
  | .rightBrace | .eof => true
  | _ => false

/-- Every declaration begins with a token that closes nothing. -/
theorem Declaration.opens {used : List Token} {stmt : Stmt} (derived : Declaration used stmt) :
    ∃ token more, used = token :: more ∧ closesDeclarations token.kind = false := by
  cases derived with
  | declare kind | declareAs kind | print kind | block kind => exact ⟨_, _, rfl, by rw [kind]; rfl⟩
  | expression derived =>
    obtain ⟨token, more, rfl, opens⟩ := derived.opens
    refine ⟨token, _, rfl, ?_⟩
    revert opens
    cases token.kind <;> decide

/-- A step that reads every declaration of the grammar that fits into so much room. -/
def CoversDeclarations (item : Parse (Option Stmt)) (room : Nat) : Prop :=
  ∀ used stmt rest, Declaration used stmt → stmt.depth ≤ room →
    item.Reads (used ++ rest) (some stmt) rest

/-- Declarations of the grammar are read up to a token that closes them, with any
clock that is long enough. -/
theorem declarationsUntil_complete {closing : Kind → Bool} {item : Parse (Option Stmt)} {room : Nat}
    (closers : ∀ kind, closing kind = true → closesDeclarations kind = true)
    (covers : CoversDeclarations item room) {used : List Token} {found : List Stmt}
    (derived : Declarations used found) (shallow : Stmt.depths found ≤ room) {last : Token}
    {later clock : List Token} (closes : closing last.kind = true)
    (long : (used ++ last :: later).length ≤ clock.length) :
    (Parse.declarationsUntil closing item clock).Reads (used ++ last :: later) found
      (last :: later) := by
  -- The induction is on the trees, as the derivation has one step for each of them.
  induction found generalizing used clock with
  | nil =>
    cases derived
    obtain ⟨tick, clock, rfl⟩ := List.exists_cons_of_length_pos (Nat.zero_lt_of_lt long)
    rw [Parse.Reads, List.nil_append, Parse.declarationsUntil_cons, if_pos closes]
  | cons first others ih =>
    cases derived with
    | @more ts us _ _ firstDerived othersDerived =>
      have ticks : 0 < clock.length := by
        rw [List.length_append, List.length_cons] at long
        omega
      obtain ⟨tick, clock, rfl⟩ := List.exists_cons_of_length_pos ticks
      simp only [Stmt.depths] at shallow
      have firstRead := covers ts first (us ++ last :: later) firstDerived (by omega)
      obtain ⟨token, more, rfl, opens⟩ := firstDerived.opens
      have stays : ¬ closing token.kind = true :=
        fun closing => by simp [closers _ closing] at opens
      -- The first declaration takes a token, so the clock still suffices for the others.
      have othersRead : (Parse.declarationsUntil closing item clock).Reads
          (us ++ last :: later) others (last :: later) := by
        refine ih othersDerived (by omega) ?_
        simp only [List.length_append, List.length_cons] at long ⊢
        omega
      rw [List.append_assoc, Parse.Reads, List.cons_append, Parse.declarationsUntil_cons,
        if_neg stays, ← List.cons_append, firstRead.bind_eq, othersRead.bind_eq]
      rfl

/-- A declaration of the grammar is read if those inside it are. -/
theorem declarationOver_complete {item : Parse (Option Stmt)} {room : Nat}
    (covers : CoversDeclarations item room) {used : List Token} {stmt : Stmt} (rest : List Token)
    (derived : Declaration used stmt) (shallow : stmt.depth ≤ room + 1) :
    (Parse.declarationOver room item).Reads (used ++ rest) stmt rest := by
  -- Each form is found by its first token and read part by part.
  cases derived with
  | @declare word name semicolon isWord isName closes =>
    rw [Parse.Reads, List.cons_append, Parse.declarationOver_cons, if_pos isWord]
    refine Parse.reads_bind_iff.mpr
      ⟨name, semicolon :: rest, Parse.reads_expect_iff.mpr ⟨rfl, isName⟩, ?_⟩
    refine Parse.reads_bind_iff.mpr ⟨none, semicolon :: rest, ?_, ?_⟩
    · exact Parse.reads_accept?_iff.mpr ⟨semicolon, rest, rfl, by simp [closes]⟩
    · exact Parse.reads_bind_iff.mpr
        ⟨semicolon, rest, Parse.reads_expect_iff.mpr ⟨rfl, closes⟩,
          Parse.reads_pure_iff.mpr ⟨rfl, rfl⟩⟩
  | @declareAs word name equals semicolon ts e isWord isName isEquals initialDerived closes =>
    simp only [List.cons_append, List.append_assoc]
    rw [Parse.Reads, Parse.declarationOver_cons, if_pos isWord]
    refine Parse.reads_bind_iff.mpr ⟨name, _, Parse.reads_expect_iff.mpr ⟨rfl, isName⟩, ?_⟩
    refine Parse.reads_bind_iff.mpr ⟨some equals, ts ++ semicolon :: rest, ?_, ?_⟩
    · exact Parse.reads_accept?_iff.mpr ⟨equals, _, rfl, by simp [isEquals]⟩
    · simp only [Stmt.depth] at shallow
      exact reads_of_finished initialDerived (by omega) closes rest
  | @print word semicolon ts e isWord valueDerived closes =>
    simp only [List.cons_append, List.append_assoc]
    rw [Parse.Reads, Parse.declarationOver_cons, if_neg (by simp [isWord]), if_pos isWord]
    simp only [Stmt.depth] at shallow
    exact reads_of_finished valueDerived (by omega) closes rest
  | @block opening closing ts body opens bodyDerived closes =>
    simp only [Stmt.depth, Nat.add_le_add_iff_right] at shallow
    -- The statements inside have one level less, and the closing brace stops them.
    have bodyRead : (Parse.declarationsUntil Parse.closesBlock item (ts ++ closing :: rest)).Reads
        (ts ++ closing :: rest) body (closing :: rest) :=
      declarationsUntil_complete (by intro kind; cases kind <;> decide) covers bodyDerived shallow
        (by rw [closes]; rfl) (Nat.le_refl _)
    simp only [List.cons_append, List.append_assoc]
    rw [Parse.Reads, Parse.declarationOver_cons, if_neg (by simp [opens]), if_neg (by simp [opens]),
      if_pos opens]
    refine Parse.reads_bind_iff.mpr ⟨body, rest, ?_, Parse.reads_pure_iff.mpr ⟨rfl, rfl⟩⟩
    refine Parse.reads_bind_iff.mpr ⟨body, closing :: rest, bodyRead, ?_⟩
    exact Parse.reads_bind_iff.mpr
      ⟨closing, rest, Parse.reads_expect_iff.mpr ⟨rfl, closes⟩, Parse.reads_pure_iff.mpr ⟨rfl, rfl⟩⟩
  | @expression semicolon ts e valueDerived closes =>
    -- No word and no brace opens an expression, so the other statements are passed over.
    obtain ⟨token, more, rfl, opens⟩ := valueDerived.opens
    have unlike (kind : Kind) (other : opensExpression kind = false) : ¬ token.kind = kind := by
      rintro rfl
      simp [other] at opens
    simp only [Stmt.depth] at shallow
    have statementRead : (Parse.expressionStatement room).Reads (token :: more ++ semicolon :: rest)
        (.expression e) rest := reads_of_finished valueDerived (by omega) closes rest
    simp only [List.cons_append, List.append_assoc] at statementRead ⊢
    rw [Parse.Reads, Parse.declarationOver_cons, if_neg (unlike _ rfl), if_neg (unlike _ rfl),
      if_neg (unlike _ rfl)]
    exact statementRead

/-- Every declaration of the grammar that fits into the room there is is read. -/
theorem covers_declaration (room : Nat) : CoversDeclarations (Parse.declaration room) room := by
  induction room with
  | zero =>
    intro used stmt rest _ shallow
    exact absurd stmt.depth_pos (by omega)
  | succ room ih =>
    intro used stmt rest derived shallow
    have read := declarationOver_complete ih rest derived shallow
    rw [Parse.Reads] at read
    simp [Parse.Reads, Parse.declaration, Parse.recovering, read]

/-- A program of the grammar that nests within the limit is read without a report,
up to its end token. -/
theorem parseTokens_complete [Host] {tokens : List Token} {last : Token} {tail : List Token}
    {program : List Stmt} (derived : Declarations tokens program)
    (within : WithinNestingLimit program) (closed : last.kind = .eof) :
    parseTokens (tokens ++ last :: tail) =
      { result := .ok program, rest := last :: tail, reports := [] } :=
  declarationsUntil_complete (by intro kind; cases kind <;> decide)
    (covers_declaration nestingLimit) derived
    within (by simp [closed]) (Nat.le_refl _)

/-- The tokens of a program before its end token are declarations. -/
theorem Program.declarations {tokens : List Token} {last : Token} {program : List Stmt}
    (derived : Program (tokens ++ [last]) program) : Declarations tokens program := by
  generalize whole : tokens ++ [last] = all at derived
  cases derived with
  | closed declarations _ =>
    obtain ⟨rfl, _⟩ := List.append_inj' whole rfl
    exact declarations

end LoxLang.Grammar

namespace LoxLang

/--
The parser accepts exactly the grammar, and builds the tree of the derivation.

Without a diagnostic, all tokens are derived, and the statements are the tree of that
derivation. What is derived is read as its tree without a diagnostic, however long its chains
are, if it nests within the limit; nothing that nests deeper is read so.
-/
theorem parseTokens_accepts_grammar [Host] (tokens : List Token) (last : Token)
    (free : ∀ token ∈ tokens, token.kind ≠ .eof) (closed : last.kind = .eof) :
    ((parseTokens (tokens ++ [last])).reports = [] →
      ∃ program, (parseTokens (tokens ++ [last])).result = .ok program ∧
        Grammar.Program (tokens ++ [last]) program ∧ WithinNestingLimit program) ∧
    ∀ program, Grammar.Program (tokens ++ [last]) program → WithinNestingLimit program →
      parseTokens (tokens ++ [last]) =
        { result := .ok program, rest := [last], reports := [] } := by
  constructor
  · intro quiet
    obtain ⟨program, read, derived, within⟩ := Grammar.parseTokens_sound free closed quiet
    exact ⟨program, by rw [read], .closed derived closed, within⟩
  · intro program derived within
    exact Grammar.parseTokens_complete derived.declarations within closed

/-- A sum in parentheses, negated and assigned, is read as the grammar derives it. -/
theorem parseTokens_accepts_negated_sum :
    parseTokens
        ([{ kind := .identifier, lexeme := "a" }, { kind := .equal, lexeme := "=" },
          { kind := .minus, lexeme := "-" },
          { kind := .leftParen, lexeme := "(" }, { kind := .identifier, lexeme := "b" },
          { kind := .plus, lexeme := "+" }, { kind := .identifier, lexeme := "c" },
          { kind := .rightParen, lexeme := ")" }, { kind := .semicolon, lexeme := ";" }] ++
          [{ kind := .eof, lexeme := "" }]) =
      { result := .ok [.expression (.assign (.token { kind := .identifier, lexeme := "a" })
          (.unary (.token { kind := .minus, lexeme := "-" })
            (.grouping (.binary (.use (.token { kind := .identifier, lexeme := "b" }))
              (.token { kind := .plus, lexeme := "+" })
              (.use (.token { kind := .identifier, lexeme := "c" }))))))]
        rest := [{ kind := .eof, lexeme := "" }]
        reports := [] } := by
  -- The derivation, from the innermost rule outwards.
  have sum : Grammar.Derives (.binary .term)
      ([{ kind := .identifier, lexeme := "b" }] ++ { kind := .plus, lexeme := "+" } ::
        [{ kind := .identifier, lexeme := "c" }]) _ :=
    .chain (.operand (.operand (.primary (.use rfl)))) (by decide) (.operand (.primary (.use rfl)))
  have negated : Grammar.Derives .assignment
      [{ kind := .minus, lexeme := "-" }, { kind := .leftParen, lexeme := "(" },
        { kind := .identifier, lexeme := "b" }, { kind := .plus, lexeme := "+" },
        { kind := .identifier, lexeme := "c" }, { kind := .rightParen, lexeme := ")" }] _ :=
    .equality (.operand (.operand (.operand (.operand
      (.prefixed (by decide)
        (.primary (.grouping rfl (.equality (.operand (.operand sum))) rfl)))))))
  have assigned : Grammar.Derives .assignment
      ({ kind := .identifier, lexeme := "a" } :: { kind := .equal, lexeme := "=" } :: _) _ :=
    .assign rfl rfl negated
  have statement : Grammar.Declaration (_ ++ [{ kind := .semicolon, lexeme := ";" }]) _ :=
    .expression assigned rfl
  exact (parseTokens_accepts_grammar _ { kind := .eof, lexeme := "" } (by decide) rfl).2 _
    (.closed (.more statement .none) rfl) (by decide)

end LoxLang
