import LoxLang.Proofs.Grammar.Soundness

/-!
What is kept of any token list, however faulty: programs of the grammar whose tokens
stand in it in their order.
-/

namespace LoxLang.Parse

variable {α β : Type} {good : List Token → α → Prop} {fine : List Token → β → Prop}

/--
Whether a step takes its tokens off the front of the list, and gives what is good
for the tokens it took.

Nothing is said of reports, so mistakes that do not stop the step are allowed.
-/
def Spends (good : List Token → α → Prop) (step : Parse α) : Prop :=
  ∀ tokens, ∃ used, tokens = used ++ (step tokens).rest ∧
    ∀ value, (step tokens).result = .ok value → good used value

namespace Spends

/-- A value that is good for no token needs none. -/
theorem pure {value : α} (known : good [] value) : Spends good (Pure.pure value) := by
  intro tokens
  refine ⟨[], rfl, ?_⟩
  intro found same
  exact Except.ok.inj same ▸ known

/-- A step that stops spends nothing. -/
theorem stop (cause : Stop) : Spends good (Parse.stop cause) := by
  intro tokens
  refine ⟨[], rfl, ?_⟩
  rintro value ⟨⟩

/-- A loop that is stopped spends nothing. -/
theorem overrun : Spends good Parse.overrun := by
  intro tokens
  cases tokens with
  | nil => exact stop .unended []
  | cons token later => exact stop .outOfRounds (token :: later)

/-- A report spends nothing. -/
theorem report (diagnostic : Diagnostic) :
    Spends (fun used _ => used = []) (Parse.report diagnostic) :=
  fun _ => ⟨[], rfl, fun _ _ => rfl⟩

/-- A refusal spends nothing. -/
theorem refuse (fault : Fault) : Spends good (Parse.refuse fault) := by
  intro tokens
  cases tokens with
  | nil => exact stop .unended []
  | cons token later =>
    rw [refuse_cons]
    exact stop .refused (token :: later)

/-- Two steps in turn spend what both of them spend. -/
theorem bind {step : Parse α} {next : α → Parse β} (first : Spends good step)
    (second : ∀ used value, good used value →
      Spends (fun later => fine (used ++ later)) (next value)) :
    Spends fine (step >>= next) := by
  intro tokens
  obtain ⟨used, same, known⟩ := first tokens
  rcases tried : step tokens with ⟨result, rest, reports⟩
  rw [tried] at same known
  cases result with
  | error cause =>
    -- The second step is not reached, so nothing has to be good.
    rw [bind_eq_of_error tried]
    refine ⟨used, same, ?_⟩
    rintro value ⟨⟩
  | ok value =>
    -- The second step starts where the first one has stopped.
    obtain ⟨later, sameLater, knownLater⟩ := second used value (known value rfl) rest
    rw [bind_eq_of_ok tried]
    refine ⟨used ++ later, ?_, knownLater⟩
    rw [List.append_assoc, ← sameLater]
    exact same

/-- What is accepted is spent, and nothing else. -/
theorem accept? (accepted : Kind → Bool) :
    Spends (fun used found => used = found.toList ∧
        ∀ token, found = some token → accepted token.kind = true)
      (Parse.accept? accepted) := by
  intro tokens
  cases tokens with
  | nil => exact stop .unended []
  | cons token later =>
    rw [accept?_cons]
    -- One token is spent if it fits, and none otherwise.
    by_cases fits : accepted token.kind = true
    · rw [if_pos fits]
      refine ⟨[token], rfl, ?_⟩
      rintro _ ⟨⟩
      simp [fits]
    · rw [if_neg fits]
      refine ⟨[], rfl, ?_⟩
      rintro _ ⟨⟩
      simp

/-- What is expected is spent, and is of the expected kind. -/
theorem expect (kind : Kind) (fault : Fault) :
    Spends (fun used token => used = [token] ∧ token.kind = kind) (Parse.expect kind fault) := by
  refine bind (accept? _) ?_
  rintro used found ⟨rfl, accepted⟩
  cases found with
  | none => exact refuse fault
  | some token => exact pure ⟨rfl, by simpa using accepted token rfl⟩

/-- A step that spends tokens does so for any weaker reason. -/
theorem imp {weaker : List Token → α → Prop} {step : Parse α} (spends : Spends good step)
    (implied : ∀ used value, good used value → weaker used value) : Spends weaker step := by
  intro tokens
  obtain ⟨used, same, known⟩ := spends tokens
  exact ⟨used, same, fun value ok => implied used value (known value ok)⟩

end Spends

/-- Skipping leaves the end of the list. -/
theorem suffix_of_skipFrom {previous : Kind} {tokens rest : List Token}
    (skipped : skipFrom previous tokens = some rest) : rest <:+ tokens := by
  induction tokens generalizing previous with
  | nil => simp [skipFrom] at skipped
  | cons token later ih =>
    rw [skipFrom] at skipped
    split at skipped
    · exact Option.some.inj skipped ▸ List.suffix_rfl
    · exact (ih skipped).trans (List.suffix_cons ..)

/-- Reading goes on at the end of the list. -/
theorem suffix_of_resume {tokens rest : List Token} (resumed : resume tokens = some rest) :
    rest <:+ tokens := by
  cases tokens with
  | nil => simp [resume] at resumed
  | cons token later =>
    rw [resume] at resumed
    split at resumed
    · exact Option.some.inj resumed ▸ List.suffix_rfl
    · exact (suffix_of_skipFrom resumed).trans (List.suffix_cons ..)

/-- After a mistake there is no result, and what is left is the end of the list. -/
theorem recovered_spec (reports : List Diagnostic) (tokens : List Token) :
    ((recovered reports tokens : Parsed (Option α)).rest <:+ tokens) ∧
      ∀ value, (recovered reports tokens : Parsed (Option α)).result ≠ .ok (some value) := by
  rw [recovered]
  cases resumed : resume tokens with
  | none => exact ⟨List.nil_suffix, by simp⟩
  | some rest => exact ⟨suffix_of_resume resumed, by simp⟩

/-- A step whose mistakes are skipped over spends what is skipped as well, and gives
nothing then. -/
theorem Spends.recovering {step : Parse α} (spends : Spends good step) :
    Spends (fun used found => ∀ value, found = some value → good used value)
      (Parse.recovering step) := by
  intro tokens
  obtain ⟨used, same, known⟩ := spends tokens
  rcases tried : step tokens with ⟨result, rest, reports⟩
  rw [tried] at same known
  -- Whatever comes of a mistake, the tokens before it and those that were skipped are spent.
  have skipping {parsed : Parsed (Option α)} (suffix : parsed.rest <:+ rest)
      (nothing : ∀ value, parsed.result ≠ .ok (some value)) :
      ∃ used, tokens = used ++ parsed.rest ∧
        ∀ found, parsed.result = .ok found → ∀ value, found = some value → good used value := by
    obtain ⟨skipped, left⟩ := suffix
    refine ⟨used ++ skipped, by rw [List.append_assoc, left]; exact same, ?_⟩
    rintro found ok value rfl
    exact absurd ok (nothing value)
  simp only [Parse.recovering, tried]
  cases result with
  | ok value =>
    refine ⟨used, same, ?_⟩
    rintro _ ⟨⟩ _ ⟨⟩
    exact known value rfl
  | error cause =>
    cases cause with
    | refused => exact skipping (recovered_spec reports rest).1 (recovered_spec reports rest).2
    | unended | outOfRounds => exact skipping List.suffix_rfl (by simp)
    | nestedTooDeeply =>
      -- The limit is reported at the token that was reached, if there is one.
      cases rest with
      | nil => exact skipping List.suffix_rfl (by simp)
      | cons token later => exact skipping (recovered_spec _ _).1 (recovered_spec _ _).2

end LoxLang.Parse

namespace LoxLang.Grammar

open Parse (Spends)

/-- Whether some of the given tokens, in their order, derive an expression. -/
def KeptExpr (rule : Rule) (used : List Token) (e : Expr) : Prop :=
  ∃ kept, kept.Sublist used ∧ Derives rule kept e

/-- Whether some of the given tokens, in their order, are a statement. -/
def KeptStmt (used : List Token) (stmt : Stmt) : Prop :=
  ∃ kept, kept.Sublist used ∧ Declaration kept stmt

/-- Whether some of the given tokens, in their order, are statements. -/
def KeptStmts (used : List Token) (program : List Stmt) : Prop :=
  ∃ kept, kept.Sublist used ∧ Declarations kept program

/-- A chain goes on from what was kept before it. -/
theorem spends_chainFrom {level : Level} {operand : Parse Expr}
    (spends : Spends (KeptExpr level.operand) operand) (clock : List Token) {earlier : List Token}
    {left : Expr} (kept : KeptExpr (.binary level) earlier left) :
    Spends (fun used => KeptExpr (.binary level) (earlier ++ used))
      (Parse.chainFrom level.accepts operand clock left) := by
  -- Each round adds an operator and an operand to what was kept.
  induction clock generalizing earlier left with
  | nil => exact .overrun
  | cons tick clock ih =>
    rw [Parse.chainFrom]
    refine Spends.bind (.accept? _) ?_
    rintro _ found ⟨rfl, accepted⟩
    cases found with
    | none => exact .pure (by simpa using kept)
    | some operator =>
      refine Spends.bind spends ?_
      rintro more right ⟨keptRight, below, derivedRight⟩
      obtain ⟨keptLeft, within, derived⟩ := kept
      have operates : operator.kind ∈ level.operators :=
        Level.accepts_iff.mp (accepted operator rfl)
      have longer : KeptExpr (.binary level) (earlier ++ operator :: more)
          (.binary left operator right) :=
        ⟨keptLeft ++ operator :: keptRight, within.append (below.cons_cons operator),
          .chain derived operates derivedRight⟩
      simpa using ih longer

/-- A chain keeps what its level derives. -/
theorem spends_chain {level : Level} {operand : Parse Expr}
    (spends : Spends (KeptExpr level.operand) operand) :
    Spends (KeptExpr (.binary level)) (Parse.chain level.accepts operand) := by
  -- The first operand alone is a chain.
  refine Spends.bind spends ?_
  rintro used first ⟨kept, within, derived⟩ tokens
  exact spends_chainFrom spends tokens ⟨kept, within, .operand derived⟩ tokens

/-- The four levels keep what the loosest of them derives. -/
theorem spends_equality {operand : Parse Expr} (spends : Spends (KeptExpr .unary) operand) :
    Spends (KeptExpr (.binary .equality)) (Parse.equality operand) := by
  -- The operands of each level are the chains of the next tighter one.
  have factor : Spends (KeptExpr (Level.operand .term)) _ := @spends_chain .factor _ spends
  have term : Spends (KeptExpr (Level.operand .comparison)) _ := @spends_chain .term _ factor
  have comparison : Spends (KeptExpr (Level.operand .equality)) _ :=
    @spends_chain .comparison _ term
  exact @spends_chain .equality _ comparison

/-- A primary keeps what its rule derives if what stands between its parentheses is kept. -/
theorem spends_primary {inner : Parse Expr} (spends : Spends (KeptExpr .assignment) inner) :
    Spends (KeptExpr .primary) (Parse.primary inner) := by
  intro tokens
  cases tokens with
  | nil => exact Spends.stop .unended []
  | cons token later =>
    rw [Parse.primary_cons]
    -- Every primary without parentheses is one token.
    have single {found : Expr} (derived : Derives .primary [token] found) :
        ∃ used, token :: later = used ++ later ∧
          ∀ e, (.ok found : Except Stop Expr) = .ok e → KeptExpr .primary used e := by
      refine ⟨[token], rfl, ?_⟩
      rintro e ⟨⟩
      exact ⟨[token], List.Sublist.refl _, derived⟩
    cases kind : token.kind with
    | leftParen =>
      -- Both parentheses are kept around what they hold.
      have grouped : Spends (fun used => KeptExpr .primary (token :: used))
          (inner >>= fun e => Parse.expect .rightParen .unclosedGrouping >>= fun _ =>
            pure (Expr.grouping e)) := by
        refine Spends.bind spends ?_
        rintro used e ⟨kept, within, derived⟩
        refine Spends.bind (.expect _ _) ?_
        rintro _ closing ⟨rfl, closes⟩
        refine .pure ⟨token :: kept ++ [closing], ?_, .grouping kind derived closes⟩
        simpa using within
      obtain ⟨used, same, known⟩ := grouped later
      exact ⟨token :: used, by rw [List.cons_append, ← same], known⟩
    | kwFalse => exact single (.falsity kind)
    | kwTrue => exact single (.truth kind)
    | kwNil => exact single (.nothing kind)
    | number => exact single (.number kind)
    | string => exact single (.string kind)
    | identifier => exact single (.use kind)
    | _ => exact Spends.stop .refused (token :: later)

/-- Assignments and operands keep what their rules derive. -/
theorem spends_assignment_and_prefixed (room : Nat) :
    Spends (KeptExpr .assignment) (Parse.assignment room) ∧
      Spends (KeptExpr .unary) (Parse.prefixed room) := by
  -- The induction is on the room, which assignments and operands share.
  induction room with
  | zero => exact ⟨by rw [Parse.assignment]; exact .stop _, by rw [Parse.prefixed]; exact .stop _⟩
  | succ room ih =>
    obtain ⟨assignments, operands⟩ := ih
    constructor
    · rw [Parse.assignment]
      refine Spends.bind (spends_equality operands) ?_
      rintro used left ⟨kept, within, derived⟩
      refine Spends.bind (.accept? _) ?_
      rintro _ found ⟨rfl, accepted⟩
      -- What was kept of the left side stays kept if whatever follows it is dropped.
      have alone (later : List Token) : KeptExpr .assignment (used ++ later) left :=
        ⟨kept, within.trans (List.sublist_append_left ..), .equality derived⟩
      cases found with
      | none => exact .pure (alone _)
      | some equals =>
        refine Spends.bind assignments ?_
        rintro more value ⟨keptValue, below, derivedValue⟩
        cases left with
        | use name =>
          -- Only a name is a target, and then the sign and the value are kept behind it.
          obtain ⟨target, rfl, isName, rfl⟩ := derived.of_use
          have isEquals : equals.kind = .equal := by simpa using accepted equals rfl
          refine .pure ⟨target :: equals :: keptValue, ?_, .assign isName isEquals derivedValue⟩
          simpa using within.append (below.cons_cons equals)
        | _ =>
          refine Spends.bind (.report _) ?_
          rintro _ _ rfl
          exact .pure (alone _)
    · rw [Parse.prefixed]
      refine Spends.bind (.accept? _) ?_
      rintro _ found ⟨rfl, accepted⟩
      cases found with
      | none =>
        refine (spends_primary assignments).imp ?_
        rintro used e ⟨kept, within, derived⟩
        exact ⟨kept, within, .primary derived⟩
      | some operator =>
        refine Spends.bind operands ?_
        rintro used e ⟨kept, within, derived⟩
        have operates : operator.kind ∈ prefixOperators := isPrefix_iff.mp (accepted operator rfl)
        exact .pure ⟨operator :: kept, by simpa using within, .prefixed operates derived⟩

/-- An expression and the semicolon behind it keep what the grammar derives, behind tokens
that are kept as well. -/
theorem spends_finished {front earlier : List Token} {next : Expr → Stmt} (room : Nat)
    (fault : Fault) (within : front.Sublist earlier)
    (derives : ∀ (ts : List Token) (e : Expr) (semicolon : Token), Derives .assignment ts e →
      semicolon.kind = .semicolon → Declaration (front ++ (ts ++ [semicolon])) (next e)) :
    Spends (fun used => KeptStmt (earlier ++ used))
      (Parse.assignment room >>= fun e => Parse.expect .semicolon fault >>= fun _ =>
        pure (next e)) := by
  refine Spends.bind (spends_assignment_and_prefixed room).1 ?_
  rintro used e ⟨kept, below, derived⟩
  refine Spends.bind (.expect _ _) ?_
  rintro _ semicolon ⟨rfl, closes⟩
  refine .pure ⟨front ++ (kept ++ [semicolon]), ?_, derives kept e semicolon derived closes⟩
  simpa using within.append (below.append_right [semicolon])

/-- A variable declaration keeps what the grammar derives, behind its word. -/
theorem spends_variableDeclaration {word : Token} (isWord : word.kind = .kwVar) (room : Nat) :
    Spends (fun used => KeptStmt ([word] ++ used)) (Parse.variableDeclaration room) := by
  -- The name is spent in any case; then an equals sign decides between the two forms.
  refine Spends.bind (.expect _ _) ?_
  rintro _ name ⟨rfl, isName⟩
  refine Spends.bind (.accept? _) ?_
  rintro _ found ⟨rfl, accepted⟩
  cases found with
  | none =>
    refine Spends.bind (.expect _ _) ?_
    rintro _ semicolon ⟨rfl, closes⟩
    exact .pure ⟨[word, name, semicolon], List.Sublist.refl _, .declare isWord isName closes⟩
  | some equals =>
    have isEquals : equals.kind = .equal := by simpa using accepted equals rfl
    have finished :=
      spends_finished room .unfinishedDeclaration (List.Sublist.refl [word, name, equals])
        fun ts e semicolon derived closes => .declareAs isWord isName isEquals derived closes
    simpa using finished

/-- Declarations up to a token that ends them keep what the grammar derives, those
with a mistake left out. -/
theorem spends_declarationsUntil {closing : Kind → Bool} {item : Parse (Option Stmt)}
    (spends : Spends (fun used found => ∀ stmt, found = some stmt → KeptStmt used stmt) item)
    (clock : List Token) :
    Spends KeptStmts (Parse.declarationsUntil closing item clock) := by
  -- The induction is on the clock, of which every declaration takes one tick.
  induction clock with
  | nil => exact .overrun
  | cons tick clock ih =>
    intro tokens
    cases tokens with
    | nil => exact Spends.stop .unended []
    | cons token later =>
      rw [Parse.declarationsUntil_cons]
      split
      · refine ⟨[], rfl, ?_⟩
        rintro program ⟨⟩
        exact ⟨[], List.Sublist.refl _, .none⟩
      · refine Spends.bind spends ?_ (token :: later)
        intro used found known
        refine Spends.bind ih ?_
        rintro more others ⟨keptOthers, below, derivedOthers⟩
        cases found with
        | none =>
          -- What a mistake has spent is dropped.
          refine .pure ⟨keptOthers, ?_, derivedOthers⟩
          simpa using below.trans (List.sublist_append_right ..)
        | some stmt =>
          obtain ⟨kept, within, derived⟩ := known stmt rfl
          refine .pure ⟨kept ++ keptOthers, ?_, .more derived derivedOthers⟩
          simpa using within.append below

/-- A block keeps the statements inside it and its closing brace. -/
theorem spends_blockBody {item : Parse (Option Stmt)}
    (spends : Spends (fun used found => ∀ stmt, found = some stmt → KeptStmt used stmt) item) :
    Spends (fun used body => ∃ kept closing, (kept ++ [closing]).Sublist used ∧
      Declarations kept body ∧
      closing.kind = .rightBrace) (Parse.blockBody item) := by
  refine Spends.bind (fun tokens => spends_declarationsUntil spends tokens tokens) ?_
  rintro used body ⟨kept, within, derived⟩
  refine Spends.bind (.expect _ _) ?_
  rintro _ closing ⟨rfl, closes⟩
  refine .pure ⟨kept, closing, ?_, derived, closes⟩
  simpa using within

/-- A declaration keeps what the grammar derives if those inside it do. -/
theorem spends_declarationOver {item : Parse (Option Stmt)} (room : Nat)
    (spends : Spends (fun used found => ∀ stmt, found = some stmt → KeptStmt used stmt) item) :
    Spends KeptStmt (Parse.declarationOver room item) := by
  intro tokens
  cases tokens with
  | nil => exact Spends.stop .unended []
  | cons token later =>
    -- Behind a word or a brace, that token is kept in front of whatever follows.
    have behind {step : Parse Stmt}
        (spends : Spends (fun used => KeptStmt ([token] ++ used)) step) :
        ∃ used, token :: later = used ++ (step later).rest ∧
          ∀ stmt, (step later).result = .ok stmt → KeptStmt used stmt := by
      obtain ⟨used, same, known⟩ := spends later
      exact ⟨token :: used, by rw [List.cons_append, ← same], known⟩
    rw [Parse.declarationOver_cons]
    split
    · next declares => exact behind (spends_variableDeclaration declares room)
    · split
      · next prints =>
        exact behind (spends_finished room .unfinishedPrint (List.Sublist.refl [token])
          fun ts e semicolon derived closes => .print prints derived closes)
      · split
        · next opens =>
          refine behind (Spends.bind (spends_blockBody spends) ?_)
          rintro used body ⟨kept, closing, within, derived, closes⟩
          refine .pure ⟨token :: (kept ++ [closing]), ?_, .block opens derived closes⟩
          simpa using within
        · have finished := spends_finished room .unfinishedExpression (List.Sublist.refl [])
            fun ts e semicolon derived closes => Declaration.expression derived closes
          exact finished (token :: later)

/-- A declaration with its recovery keeps what the grammar derives, or nothing. -/
theorem spends_declaration (room : Nat) :
    Spends (fun used found => ∀ stmt, found = some stmt → KeptStmt used stmt)
      (Parse.declaration room) := by
  induction room with
  | zero => exact .stop .nestedTooDeeply
  | succ room ih => exact Spends.recovering (spends_declarationOver room ih)

/-- Whatever is made of a token list is a program of the grammar, whose tokens stand
in the list in their order. -/
theorem spends_program [Host] : Spends KeptStmts Parse.program :=
  fun tokens => spends_declarationsUntil (spends_declaration nestingLimit) tokens tokens

end LoxLang.Grammar
