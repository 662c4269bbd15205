import LoxLang.Double
import LoxLang.Tree.Node

/-! What the language runs on. -/

namespace LoxLang

/--
What the language runs on.

The stack of the host decides how deep programs, trees and data may nest. One limit stands for
all of them: it is counted anew by each expression, each block and each tree. Statements that
are executed inside one another are few levels deeper than they were read, and are not counted.
Arithmetic is that of the host, which leaves the sign of an undefined result open.
-/
class Host where
  /-- How deep anything may nest before it is refused. -/
  nestingLimit : Nat
  /-- There is room for a statement inside a block, and so for reporting what lacks
  room inside that. -/
  one_lt_nestingLimit : 1 < nestingLimit
  /-- Whether there is room to show a tree. -/
  canShow : Node → Bool
  /-- Whether there is room to compare two trees. -/
  canCompare : Node → Node → Bool
  /-- The sign of an undefined number that an operator makes of two others. -/
  undefinedSign : Kind → Double → Double → Bool

export Host (nestingLimit one_lt_nestingLimit canShow canCompare undefinedSign)

/-- Outside of all blocks there is room for a statement. -/
theorem nestingLimit_pos [Host] : 0 < nestingLimit :=
  Nat.lt_trans Nat.zero_lt_one one_lt_nestingLimit

/-- A host with a stack of a thousand calls, less those that stand around a program. -/
instance Host.usual : Host where
  nestingLimit := 979
  one_lt_nestingLimit := by decide
  canShow tree := tree.height ≤ 320
  canCompare tree other := min tree.height other.height ≤ 320
  undefinedSign _ x y := x.negative || y.negative

end LoxLang
