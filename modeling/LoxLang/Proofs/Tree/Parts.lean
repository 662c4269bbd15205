import LoxLang.Proofs.Grammar.Rules
import LoxLang.Proofs.Source.Tokens

/-! What programs are made of: the tokens they keep and the values they hold. -/

namespace LoxLang

/-- The value that a token stands for on its own. -/
def Token.constant? (t : Token) : Option Value :=
  match t.kind with
  | .kwTrue => some (.bool true)
  | .kwFalse => some (.bool false)
  | .kwNil => some .nil
  | .number | .string => some t.literal
  | _ => none

/-- The values that can be written in a source text. -/
inductive Value.IsWritten : Value → Prop where
  | nil : IsWritten .nil
  | bool (truth : Bool) : IsWritten (.bool truth)
  | number (x : Float) : IsWritten (.number (.ofFloat x))
  | string (text : String) : IsWritten (.string text)

/-- A token whose literal is as its kind asks stands for a value that can be written. -/
theorem Token.HasLiteral.isWritten {t : Token} {value : Value} (literal : t.HasLiteral)
    (stands : t.constant? = some value) : value.IsWritten := by
  unfold HasLiteral at literal
  unfold constant? at stands
  -- Three words stand for values of their own; numbers and strings for their literals.
  cases is : t.kind with
  | kwTrue | kwFalse | kwNil =>
    simp only [is, Option.some.injEq] at stands
    subst stands
    constructor
  | number | string =>
    simp only [is, Option.some.injEq] at stands literal
    obtain ⟨_, denoted⟩ := literal
    rw [← stands, denoted]
    constructor
  | _ => simp [is] at stands

/--
Whether an expression has given tokens and values only.

Its operators are those of the language, and nothing in it is unknown.
-/
inductive Expr.MadeOf (tokens : Token → Prop) (values : Value → Prop) : Expr → Prop where
  | literal {value : Value} : values value → MadeOf tokens values (.literal value)
  | grouping {inner : Expr} : MadeOf tokens values inner → MadeOf tokens values (.grouping inner)
  | use {name : Token} : tokens name → MadeOf tokens values (.use name)
  | assign {name : Token} {value : Expr} :
    tokens name → MadeOf tokens values value → MadeOf tokens values (.assign name value)
  | unary {operator : Token} {operand : Expr} :
    tokens operator → operator.kind ∈ Grammar.prefixOperators → MadeOf tokens values operand →
      MadeOf tokens values (.unary operator operand)
  | binary {left right : Expr} {operator : Token} {level : Grammar.Level} :
    MadeOf tokens values left → tokens operator → operator.kind ∈ level.operators →
      MadeOf tokens values right →
      MadeOf tokens values (.binary left operator right)

/-- Whether a statement has given tokens and values only. -/
inductive Stmt.MadeOf (tokens : Token → Prop) (values : Value → Prop) : Stmt → Prop where
  | expression {inner : Expr} : inner.MadeOf tokens values →
    MadeOf tokens values (.expression inner)
  | print {inner : Expr} : inner.MadeOf tokens values → MadeOf tokens values (.print inner)
  | declare {name : Token} : tokens name → MadeOf tokens values (.declare name none)
  | declareAs {name : Token} {initial : Expr} :
    tokens name → initial.MadeOf tokens values → MadeOf tokens values (.declare name (some initial))
  | block {body : List Stmt} : (∀ stmt ∈ body, MadeOf tokens values stmt) →
    MadeOf tokens values (.block body)

/-- Whether a list of tokens supplies nothing but given tokens and values. -/
def Supplies (tokens : Token → Prop) (values : Value → Prop) (supply : List Token) : Prop :=
  ∀ token ∈ supply, tokens token ∧ ∀ value, token.constant? = some value → values value

/-- The tokens of a source text supply themselves and values that can be written. -/
theorem supplies_scanTokens (source : String) :
    Supplies (· ∈ scanTokens source) Value.IsWritten (scanTokens source) := by
  obtain ⟨tokens, last, same, lawful⟩ := scanTokens_ends source
  intro token member
  refine ⟨member, fun value stands => ?_⟩
  rw [same, List.mem_append, List.mem_singleton] at member
  rcases member with member | rfl
  · exact (lawful token member).1.isWritten stands
  · simp [Token.constant?, endToken] at stands

section

variable {tokens others : Token → Prop} {values further : Value → Prop}

/-- What supplies given tokens and values supplies all that those are. -/
theorem Supplies.mono {supply : List Token} (supplied : Supplies tokens values supply)
    (each : ∀ token, tokens token → others token) (every : ∀ value, values value → further value) :
    Supplies others further supply :=
  fun token member =>
    ⟨each token (supplied token member).1,
      fun value stands => every value ((supplied token member).2 value stands)⟩

/-- A part of a supply supplies no more than the whole. -/
theorem Supplies.of_subset {part whole : List Token} (supplied : Supplies tokens values whole)
    (subset : part ⊆ whole) : Supplies tokens values part :=
  fun token member => supplied token (subset member)

/-- A derived expression is made of what its tokens supply. -/
theorem Grammar.Derives.madeOf {rule : Rule} {supply : List Token} {e : Expr}
    (derived : Derives rule supply e) (supplied : Supplies tokens values supply) :
    e.MadeOf tokens values := by
  -- Every rule keeps its operands' tokens together, so the supply of a part is part of the supply.
  induction derived with
  | assign _ _ _ ih =>
    exact .assign (supplied _ (by simp)).1 (ih (supplied.of_subset (by grind)))
  | equality _ ih | operand _ ih | primary _ ih => exact ih supplied
  | chain _ known _ leftIh rightIh =>
    refine .binary (leftIh (supplied.of_subset (by simp))) (supplied _ (by simp)).1 known ?_
    exact rightIh (supplied.of_subset (by grind))
  | prefixed known _ ih =>
    exact .unary (supplied _ (by simp)).1 known (ih (supplied.of_subset (by simp)))
  | truth is | falsity is | nothing is | number is | string is =>
    exact .literal ((supplied _ (List.mem_singleton_self _)).2 _ (by rw [Token.constant?, is]))
  | use _ => exact .use (supplied _ (by simp)).1
  | grouping _ _ _ ih => exact .grouping (ih (supplied.of_subset (by grind)))

mutual

/-- A derived statement is made of what its tokens supply. -/
theorem Grammar.Declaration.madeOf {supply : List Token} {stmt : Stmt}
    (derived : Declaration supply stmt) (supplied : Supplies tokens values supply) :
    stmt.MadeOf tokens values :=
  -- What a statement is derived from is part of its tokens, so it is supplied as well.
  match derived with
  | .declare _ _ _ => .declare (supplied _ (by simp)).1
  | .declareAs _ _ _ initial _ =>
    .declareAs (supplied _ (by simp)).1 (initial.madeOf (supplied.of_subset (by grind)))
  | .print _ inner _ => .print (inner.madeOf (supplied.of_subset (by grind)))
  | .block _ body _ => .block (body.madeOf (supplied.of_subset (by grind)))
  | .expression inner _ => .expression (inner.madeOf (supplied.of_subset (by simp)))

/-- Derived statements are made of what their tokens supply. -/
theorem Grammar.Declarations.madeOf {supply : List Token} {program : List Stmt}
    (derived : Declarations supply program) (supplied : Supplies tokens values supply) :
    ∀ stmt ∈ program, stmt.MadeOf tokens values :=
  match derived with
  | .none => by simp
  | .more first rest => by
    have firstMade := first.madeOf (supplied.of_subset (by simp))
    have restMade := rest.madeOf (supplied.of_subset (by simp))
    simpa using ⟨firstMade, restMade⟩

end

end

/-- How many pairs of parentheses stand around an expression. -/
def Expr.wraps : Expr → Nat
  | grouping inner => inner.wraps + 1
  | literal _ | use _ | assign .. | unary .. | binary .. | unknown _ => 0

/-- Parentheses count as nesting, each pair twice. -/
theorem Expr.two_mul_wraps_le_nesting (e : Expr) : 2 * e.wraps ≤ e.nesting := by
  -- Only parentheses wrap, so every other expression has nothing to count.
  induction e with
  | grouping inner ih =>
    simp only [wraps, nesting]
    omega
  | _ => simp [wraps]

/-- A statement nests no deeper than the deepest of those it stands among. -/
theorem Stmt.nesting_le_nestings {stmt : Stmt} {program : List Stmt} (member : stmt ∈ program) :
    stmt.nesting ≤ Stmt.nestings program := by
  induction program with
  | nil => simp at member
  | cons first rest ih =>
    rw [Stmt.nestings]
    rcases List.mem_cons.mp member with rfl | later
    · exact Nat.le_max_left ..
    · exact Nat.le_trans (ih later) (Nat.le_max_right ..)

/-- A statement needs no more room than the deepest of those it stands among. -/
theorem Stmt.depth_le_depths {stmt : Stmt} {program : List Stmt} (member : stmt ∈ program) :
    stmt.depth ≤ Stmt.depths program := by
  induction program with
  | nil => simp at member
  | cons first rest ih =>
    rw [Stmt.depths]
    rcases List.mem_cons.mp member with rfl | later
    · exact Nat.le_max_left ..
    · exact Nat.le_trans (ih later) (Nat.le_max_right ..)

end LoxLang
