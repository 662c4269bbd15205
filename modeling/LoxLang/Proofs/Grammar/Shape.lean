import LoxLang.Proofs.Grammar.Salvage

/-!
The shape of trees: operands bind tighter than their operators, and the tokens of a tree
stand in their order.
-/

namespace LoxLang

namespace Grammar

/-- How tight a rule binds, from the loosest on. -/
def Rule.rank : Rule → Nat
  | assignment => 0
  | binary .equality => 1
  | binary .comparison => 2
  | binary .term => 3
  | binary .factor => 4
  | unary => 5
  | primary => 6

/-- The operands of a level bind tighter than its operators. -/
theorem Level.rank_lt_operand (level : Level) : (Rule.binary level).rank < level.operand.rank := by
  cases level <;> decide

end Grammar

/--
Whether an expression is well formed, and which rule builds its outermost form.

The left operand of a binary operator binds as tight as the operator or tighter, the right one
tighter. A prefix operator stands before another prefix operator or a primary. An assignment
binds loosest, so it is no operand: it stands alone, between parentheses, or as the value of
another.
-/
inductive Expr.FormedBy : Grammar.Rule → Expr → Prop where
  | literal {value : Value} : FormedBy .primary (.literal value)
  | grouping {rule : Grammar.Rule} {inner : Expr} : FormedBy rule inner →
    FormedBy .primary (.grouping inner)
  | use {name : Token} : name.kind = .identifier → FormedBy .primary (.use name)
  | assign {name : Token} {rule : Grammar.Rule} {value : Expr} :
    name.kind = .identifier → FormedBy rule value → FormedBy .assignment (.assign name value)
  | unary {operator : Token} {rule : Grammar.Rule} {operand : Expr} :
    operator.kind ∈ Grammar.prefixOperators → FormedBy rule operand →
      Grammar.Rule.unary.rank ≤ rule.rank →
      FormedBy .unary (.unary operator operand)
  | binary {level : Grammar.Level} {operator : Token} {leftRule rightRule : Grammar.Rule}
    {left right : Expr} :
    operator.kind ∈ level.operators →
      FormedBy leftRule left → (Grammar.Rule.binary level).rank ≤ leftRule.rank →
      FormedBy rightRule right → (Grammar.Rule.binary level).rank < rightRule.rank →
      FormedBy (.binary level) (.binary left operator right)

/--
Whether a statement is well formed.

The forms that cannot be executed, conditions and loops among them, are not.
-/
inductive Stmt.WellFormed : Stmt → Prop where
  | expression {rule : Grammar.Rule} {inner : Expr} : inner.FormedBy rule →
    WellFormed (.expression inner)
  | print {rule : Grammar.Rule} {inner : Expr} : inner.FormedBy rule → WellFormed (.print inner)
  | declare {name : Token} : name.kind = .identifier → WellFormed (.declare name none)
  | declareAs {name : Token} {rule : Grammar.Rule} {initial : Expr} :
    name.kind = .identifier → initial.FormedBy rule → WellFormed (.declare name (some initial))
  | block {body : List Stmt} : (∀ stmt ∈ body, WellFormed stmt) → WellFormed (.block body)

/-- The marks of an expression, names and operators alike, in the order of the source. -/
def Expr.marks : Expr → List Mark
  | literal _ | unknown _ => []
  | grouping inner => inner.marks
  | use name => [name]
  | assign name value => name :: value.marks
  | unary operator operand => operator :: operand.marks
  | binary left operator right => left.marks ++ operator :: right.marks

mutual

/-- The marks of a statement, in the order of the source. -/
def Stmt.marks : Stmt → List Mark
  | .expression inner | .print inner => inner.marks
  | .declare name none => [name]
  | .declare name (some initial) => name :: initial.marks
  | .block body => Stmt.allMarks body
  | .unknown _ => []

/-- The marks of statements, in the order of the source. -/
def Stmt.allMarks : List Stmt → List Mark
  | [] => []
  | first :: rest => first.marks ++ Stmt.allMarks rest

end

namespace Grammar

/-- A derived expression is well formed, and binds as tight as its rule or tighter. -/
theorem Derives.formedBy {rule : Rule} {ts : List Token} {e : Expr} (derived : Derives rule ts e) :
    ∃ outer : Rule, e.FormedBy outer ∧ rule.rank ≤ outer.rank := by
  induction derived with
  | assign isName _ _ ih =>
    obtain ⟨outer, formed, _⟩ := ih
    exact ⟨_, .assign isName formed, Nat.le_refl _⟩
  | equality _ ih =>
    obtain ⟨outer, formed, _⟩ := ih
    exact ⟨outer, formed, Nat.zero_le _⟩
  | @operand level _ _ _ ih =>
    -- An operand alone is a chain of its level, and binds tighter than that.
    obtain ⟨outer, formed, tight⟩ := ih
    have tighter := level.rank_lt_operand
    exact ⟨outer, formed, by omega⟩
  | @chain level _ _ _ _ _ _ operates _ leftIh rightIh =>
    obtain ⟨leftOuter, leftFormed, leftTight⟩ := leftIh
    obtain ⟨rightOuter, rightFormed, rightTight⟩ := rightIh
    -- Only the right operand must be one of the level's own operands.
    have tighter := Nat.lt_of_lt_of_le level.rank_lt_operand rightTight
    exact ⟨_, .binary operates leftFormed leftTight rightFormed tighter, Nat.le_refl _⟩
  | prefixed operates _ ih =>
    obtain ⟨outer, formed, tight⟩ := ih
    exact ⟨_, .unary operates formed tight, Nat.le_refl _⟩
  | primary _ ih =>
    obtain ⟨outer, formed, tight⟩ := ih
    exact ⟨outer, formed, Nat.le_trans (by decide) tight⟩
  | truth | falsity | nothing | number | string => exact ⟨_, .literal, Nat.le_refl _⟩
  | use isName => exact ⟨_, .use isName, Nat.le_refl _⟩
  | grouping _ _ _ ih =>
    obtain ⟨outer, formed, _⟩ := ih
    exact ⟨_, .grouping formed, Nat.le_refl _⟩

/-- The marks of a derived expression are among its tokens, in their order. -/
theorem Derives.marks_sublist {rule : Rule} {ts : List Token} {e : Expr}
    (derived : Derives rule ts e) :
    e.marks.Sublist (ts.map Mark.token) := by
  -- Literals, parentheses and the signs of assignments leave no mark behind.
  induction derived with
  | assign _ _ _ ih => exact (ih.cons _).cons_cons _
  | equality _ ih | operand _ ih | primary _ ih => exact ih
  | chain _ _ _ leftIh rightIh =>
    rw [Expr.marks, List.map_append, List.map_cons]
    exact leftIh.append (rightIh.cons_cons _)
  | prefixed _ _ ih => exact ih.cons_cons _
  | truth | falsity | nothing | number | string => exact List.nil_sublist _
  | use _ => exact List.Sublist.refl _
  | grouping _ _ _ ih =>
    rw [Expr.marks, List.cons_append, List.map_cons, List.map_append]
    exact (ih.trans (List.sublist_append_left ..)).cons _

mutual

/-- A derived statement is well formed, and its marks are among its tokens, in their order. -/
theorem Declaration.shape {ts : List Token} {stmt : Stmt} (derived : Declaration ts stmt) :
    stmt.WellFormed ∧ stmt.marks.Sublist (ts.map Mark.token) := by
  -- Each form drops keywords and semicolons and keeps the marks of its parts.
  cases derived with
  | declare _ isName _ => exact ⟨.declare isName, by simp [Stmt.marks]⟩
  | declareAs _ isName _ initial _ =>
    obtain ⟨outer, formed, _⟩ := initial.formedBy
    refine ⟨.declareAs isName formed, ?_⟩
    simpa [Stmt.marks]
      using ((initial.marks_sublist.trans (List.sublist_append_left ..)).cons _).cons_cons _
      |>.cons _
  | print _ inner _ =>
    obtain ⟨outer, formed, _⟩ := inner.formedBy
    refine ⟨.print formed, ?_⟩
    simpa [Stmt.marks] using (inner.marks_sublist.trans (List.sublist_append_left ..)).cons _
  | block _ body _ =>
    obtain ⟨formed, sublist⟩ := body.shape
    refine ⟨.block formed, ?_⟩
    simpa [Stmt.marks] using (sublist.trans (List.sublist_append_left ..)).cons _
  | expression inner _ =>
    obtain ⟨outer, formed, _⟩ := inner.formedBy
    refine ⟨.expression formed, ?_⟩
    simpa [Stmt.marks] using inner.marks_sublist.trans (List.sublist_append_left ..)

/-- Derived statements are well formed, and their marks are among their tokens, in their order. -/
theorem Declarations.shape {ts : List Token} {program : List Stmt}
    (derived : Declarations ts program) :
    (∀ stmt ∈ program, stmt.WellFormed) ∧ (Stmt.allMarks program).Sublist (ts.map Mark.token) := by
  cases derived with
  | none => exact ⟨by simp, List.Sublist.refl _⟩
  | more first rest =>
    obtain ⟨formed, sublist⟩ := first.shape
    obtain ⟨restFormed, restSublist⟩ := rest.shape
    refine ⟨by simpa using ⟨formed, restFormed⟩, ?_⟩
    rw [Stmt.allMarks, List.map_append]
    exact sublist.append restSublist

end

end Grammar

/--
Whatever is read from a token list is well formed.

With an end token in the list there is a program, however many mistakes are reported. Each of
its statements is well formed. The tokens that it keeps, in the order of the source, are a
subsequence of the list.
-/
theorem parseTokens_gives_wellFormed [Host] {tokens : List Token} (ended : Grammar.Ended tokens) :
    ∃ program, (parseTokens tokens).result = .ok program ∧ (∀ stmt ∈ program, stmt.WellFormed) ∧
      (Stmt.allMarks program).Sublist (tokens.map Mark.token) := by
  -- Reading stays before the first end token, so it has a result.
  obtain ⟨before, last, tail, rfl, closed, free⟩ := cut_at_first ended
  obtain ⟨seen, program, ok, _, taken⟩ := parseTokens_before_end free closed
  have result : (parseTokens (before ++ last :: tail)).result = .ok program := by rw [taken, ok]
  -- What is kept of the list is derived by the grammar, and that settles the shape.
  obtain ⟨used, same, known⟩ := Grammar.spends_program (before ++ last :: tail)
  obtain ⟨kept, within, derived⟩ := known program result
  obtain ⟨formed, sublist⟩ := derived.shape
  have among : kept.Sublist (before ++ last :: tail) := by
    rw [same]
    exact within.trans (List.sublist_append_left ..)
  exact ⟨program, result, formed, sublist.trans (among.map Mark.token)⟩

/-- A target that cannot be assigned to, a stray parenthesis in a block, and a sum
that is not finished. -/
def faulty : List Token :=
  let name (lexeme : String) : Token := { kind := .identifier, lexeme }
  let equals : Token := { kind := .equal, lexeme := "=" }
  let semicolon : Token := { kind := .semicolon, lexeme := ";" }
  let opening : Token := { kind := .leftParen, lexeme := "(" }
  let closing : Token := { kind := .rightParen, lexeme := ")" }
  [{ kind := .minus, lexeme := "-" }, name "a", equals, name "b", semicolon] ++
    [{ kind := .leftBrace, lexeme := "\x7b" }, closing, semicolon] ++
    [name "c", equals, opening, name "d", equals, name "e", closing, semicolon] ++
    [{ kind := .rightBrace, lexeme := "\x7d" }] ++
    [name "f", { kind := .plus, lexeme := "+" }, { kind := .eof, lexeme := "" }]

/-- What is left of the faulty list: the negation before a sign, and the block
without its first statement. -/
def salvaged : List Stmt :=
  let name (lexeme : String) : Mark := .token { kind := .identifier, lexeme }
  [.expression (.unary (.token { kind := .minus, lexeme := "-" }) (.use (name "a"))),
    .block [.expression (.assign (name "c") (.grouping (.assign (name "d") (.use (name "e")))))]]

set_option maxRecDepth 20000 in
/-- Of three statements with a mistake two leave something, and that is well formed. -/
theorem parseTokens_gives_wellFormed_faulty :
    Grammar.Ended faulty ∧ (parseTokens faulty).reports.length = 3 ∧
      (parseTokens faulty).result = .ok salvaged ∧
      (∀ stmt ∈ salvaged, stmt.WellFormed) ∧
        (Stmt.allMarks salvaged).Sublist (faulty.map Mark.token) := by
  have ended : Grammar.Ended faulty := ⟨{ kind := .eof, lexeme := "" }, by decide, rfl⟩
  have read : (parseTokens faulty).result = .ok salvaged := rfl
  obtain ⟨program, result, shape⟩ := parseTokens_gives_wellFormed ended
  -- There is one result only.
  obtain rfl : program = salvaged := Except.ok.inj (result.symm.trans read)
  exact ⟨ended, rfl, read, shape⟩

end LoxLang
