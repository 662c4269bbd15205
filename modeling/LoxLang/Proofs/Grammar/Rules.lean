import LoxLang.Host
import LoxLang.Tree.Basic

/-!
The grammar as rules of derivation: which tokens are a program, and the tree that a
derivation builds.
-/

namespace LoxLang.Grammar

/-- The levels of binary operators, the loosest first. -/
inductive Level where
  | equality
  | comparison
  | term
  | factor
deriving DecidableEq, Repr

/-- The rules for expressions, the loosest first. -/
inductive Rule where
  | assignment
  | binary (level : Level)
  | unary
  | primary
deriving DecidableEq, Repr

/-- The operators that join the operands of a level. -/
def Level.operators : Level → List Kind
  | equality => [.bangEqual, .equalEqual]
  | comparison => [.greater, .greaterEqual, .less, .lessEqual]
  | term => [.minus, .plus]
  | factor => [.slash, .star]

/-- The rule for the operands of a level. -/
def Level.operand : Level → Rule
  | equality => .binary .comparison
  | comparison => .binary .term
  | term => .binary .factor
  | factor => .unary

/-- The operators that stand before their operand. -/
def prefixOperators : List Kind :=
  [.bang, .minus]

/--
The tokens that a rule for expressions derives, and the tree of the derivation.

A chain of operators is a shorter chain, an operator and one more operand, so its tree leans to
the left. Assignments and prefix operators hold what stands behind them, so their trees lean to
the right.
-/
inductive Derives : Rule → List Token → Expr → Prop where
  | assign {name equals : Token} {ts : List Token} {value : Expr} :
    name.kind = .identifier → equals.kind = .equal → Derives .assignment ts value →
      Derives .assignment (name :: equals :: ts) (.assign name value)
  | equality {ts : List Token} {e : Expr} :
    Derives (.binary .equality) ts e → Derives .assignment ts e
  | operand {level : Level} {ts : List Token} {e : Expr} :
    Derives level.operand ts e → Derives (.binary level) ts e
  | chain {level : Level} {operator : Token} {ts us : List Token} {left right : Expr} :
    Derives (.binary level) ts left → operator.kind ∈ level.operators →
      Derives level.operand us right →
      Derives (.binary level) (ts ++ operator :: us) (.binary left operator right)
  | prefixed {operator : Token} {ts : List Token} {e : Expr} :
    operator.kind ∈ prefixOperators → Derives .unary ts e →
      Derives .unary (operator :: ts) (.unary operator e)
  | primary {ts : List Token} {e : Expr} :
    Derives .primary ts e → Derives .unary ts e
  | truth {t : Token} : t.kind = .kwTrue → Derives .primary [t] (.literal (.bool true))
  | falsity {t : Token} : t.kind = .kwFalse → Derives .primary [t] (.literal (.bool false))
  | nothing {t : Token} : t.kind = .kwNil → Derives .primary [t] (.literal .nil)
  | number {t : Token} : t.kind = .number → Derives .primary [t] (.literal t.literal)
  | string {t : Token} : t.kind = .string → Derives .primary [t] (.literal t.literal)
  | use {t : Token} : t.kind = .identifier → Derives .primary [t] (.use t)
  | grouping {opening closing : Token} {ts : List Token} {e : Expr} :
    opening.kind = .leftParen → Derives .assignment ts e → closing.kind = .rightParen →
      Derives .primary (opening :: ts ++ [closing]) (.grouping e)

mutual

/-- The tokens that are one declaration or statement, and its tree. -/
inductive Declaration : List Token → Stmt → Prop where
  | declare {word name semicolon : Token} :
    word.kind = .kwVar → name.kind = .identifier → semicolon.kind = .semicolon →
      Declaration [word, name, semicolon] (.declare name none)
  | declareAs {word name equals semicolon : Token} {ts : List Token} {e : Expr} :
    word.kind = .kwVar → name.kind = .identifier → equals.kind = .equal → Derives .assignment ts e →
      semicolon.kind = .semicolon →
      Declaration (word :: name :: equals :: ts ++ [semicolon]) (.declare name (some e))
  | print {word semicolon : Token} {ts : List Token} {e : Expr} :
    word.kind = .kwPrint → Derives .assignment ts e → semicolon.kind = .semicolon →
      Declaration (word :: ts ++ [semicolon]) (.print e)
  | block {opening closing : Token} {ts : List Token} {body : List Stmt} :
    opening.kind = .leftBrace → Declarations ts body → closing.kind = .rightBrace →
      Declaration (opening :: ts ++ [closing]) (.block body)
  | expression {semicolon : Token} {ts : List Token} {e : Expr} :
    Derives .assignment ts e → semicolon.kind = .semicolon →
      Declaration (ts ++ [semicolon]) (.expression e)

/-- The tokens that are any number of declarations, and their trees. -/
inductive Declarations : List Token → List Stmt → Prop where
  | none : Declarations [] []
  | more {ts us : List Token} {first : Stmt} {rest : List Stmt} :
    Declaration ts first → Declarations us rest → Declarations (ts ++ us) (first :: rest)

end

/-- The tokens that are a whole program, closed by an end token, and its tree. -/
inductive Program : List Token → List Stmt → Prop where
  | closed {ts : List Token} {last : Token} {program : List Stmt} :
    Declarations ts program → last.kind = .eof → Program (ts ++ [last]) program

end LoxLang.Grammar

namespace LoxLang

/--
How deep an expression nests.

Parentheses count twice, as they hold both an assignment and an operand; the operands of a
chain stand side by side.
-/
def Expr.nesting : Expr → Nat
  | literal _ | use _ | unknown _ => 0
  | grouping inner => inner.nesting + 2
  | assign _ value => value.nesting + 1
  | unary _ operand => operand.nesting + 1
  | binary left _ right => max left.nesting right.nesting

mutual

/-- How deep the deepest expression of a statement nests. -/
def Stmt.nesting : Stmt → Nat
  | .expression inner => inner.nesting
  | .print inner => inner.nesting
  | .declare _ (some initial) => initial.nesting
  | .declare _ none | .unknown _ => 0
  | .block body => Stmt.nestings body

/-- How deep the deepest expression of several statements nests. -/
def Stmt.nestings : List Stmt → Nat
  | [] => 0
  | first :: rest => max first.nesting (Stmt.nestings rest)

end

mutual

/--
How much room a statement needs to be read.

A statement takes one level itself. Its expression takes two more than it nests, and a block as
many more as the deepest statement inside.
-/
def Stmt.depth : Stmt → Nat
  | .expression inner => inner.nesting + 3
  | .print inner => inner.nesting + 3
  | .declare _ (some initial) => initial.nesting + 3
  | .declare _ none | .unknown _ => 1
  | .block body => Stmt.depths body + 1

/-- How much room the deepest of several statements needs. -/
def Stmt.depths : List Stmt → Nat
  | [] => 0
  | first :: rest => max first.depth (Stmt.depths rest)

end

/-- Every statement needs room. -/
theorem Stmt.depth_pos (stmt : Stmt) : 0 < stmt.depth := by
  cases stmt with
  | declare name initial => cases initial <;> simp [depth]
  | expression | print | block | unknown => simp [depth]

mutual

/-- The expressions of a statement nest less deep than the statement. -/
theorem Stmt.nesting_lt_depth (stmt : Stmt) : stmt.nesting < stmt.depth := by
  match stmt with
  | .expression inner | .print inner | .declare _ (some inner) =>
    simp only [Stmt.nesting, Stmt.depth]
    omega
  | .declare _ none | .unknown _ => simp [Stmt.nesting, Stmt.depth]
  | .block body =>
    have inside := Stmt.nestings_le_depths body
    simp only [Stmt.nesting, Stmt.depth]
    omega

/-- The expressions of several statements nest no deeper than the statements. -/
theorem Stmt.nestings_le_depths (program : List Stmt) :
    Stmt.nestings program ≤ Stmt.depths program := by
  match program with
  | [] => exact Nat.le_refl _
  | first :: rest =>
    have inFirst := first.nesting_lt_depth
    have inRest := Stmt.nestings_le_depths rest
    simp only [Stmt.nestings, Stmt.depths]
    omega

end

/-- Whether a program nests no deeper than its reader can follow. -/
def WithinNestingLimit [Host] (program : List Stmt) : Prop :=
  Stmt.depths program ≤ nestingLimit

instance [Host] (program : List Stmt) : Decidable (WithinNestingLimit program) :=
  inferInstanceAs (Decidable (_ ≤ _))

end LoxLang
