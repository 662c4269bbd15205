import LoxLang.Grammar.Parse
import LoxLang.Tree.Basic

/-!
Expressions read from tokens: assignment binds loosest, then the four levels of binary
operators, then prefixes.
-/

namespace LoxLang.Kind

/-- The operators of the loosest binary level. -/
def isEquality : Kind → Bool
  | bangEqual | equalEqual => true
  | _ => false

/-- The operators that compare. -/
def isComparison : Kind → Bool
  | greater | greaterEqual | less | lessEqual => true
  | _ => false

/-- The operators that add and subtract. -/
def isTerm : Kind → Bool
  | minus | plus => true
  | _ => false

/-- The operators that multiply and divide. -/
def isFactor : Kind → Bool
  | slash | star => true
  | _ => false

/-- The operators that stand before their operand. -/
def isPrefix : Kind → Bool
  | bang | minus => true
  | _ => false

end LoxLang.Kind

namespace LoxLang.Parse

/--
Operators of one level and their right operands, folded to the left onto what stands before them.

Every round takes an operator, so the tokens themselves, taken as a clock, do not
run out before they end.
-/
def chainFrom (operators : Kind → Bool) (operand : Parse Expr) : List Token → Expr → Parse Expr
  | [], _ => overrun
  | _ :: clock, left => do
    match ← accept? operators with
    | some operator =>
      let right ← operand
      chainFrom operators operand clock (.binary left operator right)
    | none => return left

/-- Operands of one level, joined by its operators. -/
def chain (operators : Kind → Bool) (operand : Parse Expr) : Parse Expr := do
  let first ← operand
  fun tokens => chainFrom operators operand tokens first tokens

/-- The four levels of binary operators over a common operand. -/
def equality (operand : Parse Expr) : Parse Expr :=
  chain Kind.isEquality (chain Kind.isComparison (chain Kind.isTerm (chain Kind.isFactor operand)))

/-- An expression that no operator applies to from inside; parentheses hold an inner one. -/
def primary (inner : Parse Expr) : Parse Expr := do
  let token ← peek
  match token.kind with
  | .kwFalse => let _ ← advance; return .literal (.bool false)
  | .kwTrue => let _ ← advance; return .literal (.bool true)
  | .kwNil => let _ ← advance; return .literal .nil
  | .number | .string => let _ ← advance; return .literal token.literal
  | .identifier => let _ ← advance; return .use token
  | .leftParen =>
    let _ ← advance
    let expression ← inner
    let _ ← expect .rightParen .unclosedGrouping
    return .grouping expression
  | _ => refuse .missingExpression

mutual

/-- An assignment or anything that binds tighter, with room for so many levels of nesting. -/
def assignment : Nat → Parse Expr
  | 0 => stop .nestedTooDeeply
  | room + 1 => do
    let left ← equality (prefixed room)
    match ← accept? (· == .equal) with
    | some equals =>
      let value ← assignment room
      match left with
      | .use name => return .assign name value
      | _ =>
        -- The parser is not confused, so the mistake does not stop it.
        report (.atToken equals .invalidTarget)
        return left
    | none => return left

/-- A primary behind any number of prefix operators, with room for so many levels of nesting. -/
def prefixed : Nat → Parse Expr
  | 0 => stop .nestedTooDeeply
  | room + 1 => do
    match ← accept? Kind.isPrefix with
    | some operator => return .unary operator (← prefixed room)
    | none => primary (assignment room)

end

end LoxLang.Parse
