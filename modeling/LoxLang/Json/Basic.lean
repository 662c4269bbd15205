import LoxLang.Amount
import LoxLang.Text.Garbled

/-! JSON values, with whole numbers kept apart from numbers that have a fraction or an exponent. -/

namespace LoxLang

/-- A JSON value; the fields of an object stand in the order in which their names first occurred. -/
inductive Json where
  | null
  | bool (truth : Bool)
  | int (value : Int)
  | number (value : Float)
  | string (text : String)
  /-- A string that holds half of a pair. -/
  | garbled (text : Garbled)
  | array (items : List Json)
  | object (fields : List (Text × Json))
deriving Inhabited

namespace Json

mutual

/-- Decides whether two values are one. -/
def decEq : (a b : Json) → Decidable (a = b)
  | null, null => isTrue rfl
  | bool a, bool b => decidable_of_iff (a = b) (by simp)
  | int a, int b => decidable_of_iff (a = b) (by simp)
  | number a, number b => decidable_of_iff (a = b) (by simp)
  | string a, string b => decidable_of_iff (a = b) (by simp)
  | garbled a, garbled b => decidable_of_iff (a = b) (by simp)
  | array a, array b =>
    match decEqItems a b with
    | isTrue same => isTrue (by rw [same])
    | isFalse differ => isFalse (by simp [differ])
  | object a, object b =>
    match decEqFields a b with
    | isTrue same => isTrue (by rw [same])
    | isFalse differ => isFalse (by simp [differ])
  | null, bool _ | null, int _ | null, number _ | null, string _ | null, garbled _
  | null, array _ | null, object _
  | bool _, null | bool _, int _ | bool _, number _ | bool _, string _ | bool _, garbled _
  | bool _, array _ | bool _, object _
  | int _, null | int _, bool _ | int _, number _ | int _, string _ | int _, garbled _
  | int _, array _ | int _, object _
  | number _, null | number _, bool _ | number _, int _ | number _, string _
  | number _, garbled _ | number _, array _ | number _, object _
  | string _, null | string _, bool _ | string _, int _ | string _, number _
  | string _, garbled _ | string _, array _ | string _, object _
  | garbled _, null | garbled _, bool _ | garbled _, int _ | garbled _, number _
  | garbled _, string _ | garbled _, array _ | garbled _, object _
  | array _, null | array _, bool _ | array _, int _ | array _, number _ | array _, string _
  | array _, garbled _ | array _, object _
  | object _, null | object _, bool _ | object _, int _ | object _, number _ | object _, string _
  | object _, garbled _ | object _, array _ => isFalse (by simp)

/-- Decides whether two lists of values are one. -/
def decEqItems : (a b : List Json) → Decidable (a = b)
  | [], [] => isTrue rfl
  | [], _ :: _ | _ :: _, [] => isFalse (by simp)
  | a :: as, b :: bs =>
    match decEq a b, decEqItems as bs with
    | isTrue first, isTrue rest => isTrue (by rw [first, rest])
    | isFalse differ, _ => isFalse (by simp [differ])
    | _, isFalse differ => isFalse (by simp [differ])

/-- Decides whether two lists of fields are one. -/
def decEqFields : (a b : List (Text × Json)) → Decidable (a = b)
  | [], [] => isTrue rfl
  | [], _ :: _ | _ :: _, [] => isFalse (by simp)
  | (m, a) :: as, (n, b) :: bs =>
    match decEq a b, decEqFields as bs with
    | isTrue first, isTrue rest => decidable_of_iff (m = n) (by simp [first, rest])
    | isFalse differ, _ => isFalse (by simp [differ])
    | _, isFalse differ => isFalse (by simp [differ])

end

instance : DecidableEq Json := decEq

/-- What a value amounts to, if it is a number; the truth values count as one and zero. -/
def amount? : Json → Option Amount
  | bool true => some (.whole 1)
  | bool false => some (.whole 0)
  | int i => some (.whole i)
  | number x => some (Number.amount x)
  | null | string _ | garbled _ | array _ | object _ => none

mutual

/-- Whether two values say the same: numbers by what they amount to, objects whatever the
order of their fields. -/
def same : Json → Json → Bool
  | null, null => true
  | string a, string b => a == b
  | garbled a, garbled b => a == b
  | array a, array b => sameItems a b
  | object a, object b => a.length == b.length && sameFields a b
  | a, b => a.amount?.isSome && a.amount? == b.amount?

/-- Whether two lists of values say the same. -/
def sameItems : List Json → List Json → Bool
  | [], [] => true
  | a :: as, b :: bs => same a b && sameItems as bs
  | [], _ :: _ | _ :: _, [] => false

/-- Whether every field of one object says the same in another. -/
def sameFields : List (Text × Json) → List (Text × Json) → Bool
  | [], _ => true
  | (name, a) :: rest, others =>
    (match others.lookup name with
      | some b => same a b
      | none => false) && sameFields rest others

end

/-- Gives a field a value, in its old place if the name is there already. -/
def setField (name : Text) (value : Json) : List (Text × Json) → List (Text × Json)
  | [] => [(name, value)]
  | (other, old) :: rest =>
    if other = name then (name, value) :: rest else (other, old) :: setField name value rest

/-- The name of the type that a value of this shape has. -/
def typeName : Json → String
  | null => "NoneType"
  | bool _ => "bool"
  | int _ => "int"
  | number _ => "float"
  | string _ | garbled _ => "str"
  | array _ => "list"
  | object _ => "dict"

mutual

/-- A value as it is shown inside a message, strings between quotes. -/
def quoted : Json → String
  | null => "None"
  | bool true => "True"
  | bool false => "False"
  | int i => toString i
  | number x => Number.text x
  | string s => Quoted.encode s
  | garbled text => (Text.garbled text).quoted
  | array items => "[" ++ ", ".intercalate (quotedItems items) ++ "]"
  | object fields => "\x7b" ++ ", ".intercalate (quotedFields fields) ++ "\x7d"

/-- The items of an array as they are shown inside a message. -/
def quotedItems : List Json → List String
  | [] => []
  | item :: rest => quoted item :: quotedItems rest

/-- The fields of an object as they are shown inside a message. -/
def quotedFields : List (Text × Json) → List String
  | [] => []
  | (name, value) :: rest => (name.quoted ++ ": " ++ quoted value) :: quotedFields rest

end

/-- The string that a text is. -/
def ofText : Text → Json
  | .plain text => string text
  | .garbled text => garbled text

/-- The text of a value on its own, a string without quotes. -/
def text : Json → Text
  | string s => .plain s
  | garbled text => .garbled text
  | other => .plain other.quoted

/-- The text of a value on its own, as it is shown inside a message. -/
def shown (value : Json) : String :=
  value.text.escaped

end Json

end LoxLang
