import LoxLang.Token.Mark

/-! Programs as trees of statements and expressions. -/

namespace LoxLang

/--
An expression.

The last form stands where a loaded tree holds something that cannot be evaluated; it keeps
only the name of that thing.
-/
inductive Expr where
  | literal (value : Value)
  | grouping (inner : Expr)
  | use (name : Mark)
  | assign (name : Mark) (value : Expr)
  | unary (operator : Mark) (operand : Expr)
  | binary (left : Expr) (operator : Mark) (right : Expr)
  | unknown (typeName : String)
deriving DecidableEq, Inhabited

/--
A statement.

The last form stands where a loaded tree holds something that cannot be executed; it keeps
only the name of that thing.
-/
inductive Stmt where
  | expression (inner : Expr)
  | print (inner : Expr)
  | declare (name : Mark) (initial : Option Expr)
  | block (body : List Stmt)
  | unknown (typeName : String)
deriving Inhabited

end LoxLang
