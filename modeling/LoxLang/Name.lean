import LoxLang.Json.Basic

/-! The names that variables go by. -/

namespace LoxLang

/--
The name of a variable.

In a source text every name is a word. A tree written by hand may also use a number or nothing,
and numbers are one name if they amount to the same.
-/
inductive Name where
  | word (text : String)
  | amount (value : Amount)
  | null
  /-- A string that holds half of a pair. -/
  | garbled (text : Garbled)
deriving DecidableEq, Inhabited

namespace Name

/-- The name that data stands for; arrays and objects are no names. -/
def ofData? : Json → Option Name
  | .string text => some (word text)
  | .null => some null
  | .garbled text => some (garbled text)
  | data => data.amount?.map amount

/-- The data that a name is shown as. -/
def data : Name → Json
  | word text => .string text
  | amount (.whole i) => .int i
  | amount (.broken x) => .number x
  | null => .null
  | garbled text => .garbled text

/-- The text of a name. -/
def text (name : Name) : String :=
  name.data.shown

end Name

end LoxLang
