import LoxLang.Proofs.Grammar.Rules
import LoxLang.Proofs.Reference.Showing
import LoxLang.Proofs.Value.Plain

/-!
What the operators make of data, as rules, and that applying an operator to values follows them.
-/

namespace LoxLang

namespace Reference

/-- The data of the language, with one undefined number. -/
inductive Datum where
  | nil
  | bool (truth : Bool)
  | number (x : Float)
  | string (text : String)

namespace Datum

/-- Whether a datum is a number. -/
def IsNumber (a : Datum) : Prop :=
  ∃ x, a = number x

/-- Whether a datum is a number or a text. -/
def IsAddend (a : Datum) : Prop :=
  a.IsNumber ∨ ∃ text, a = string text

/-- Nil and false count as false, and nothing else does. -/
def IsFalsey (a : Datum) : Prop :=
  a = nil ∨ a = bool false

/-- The text that a datum shows. -/
inductive Shows : Datum → String → Prop where
  | nil : Shows nil "nil"
  | true : Shows (bool true) "true"
  | false : Shows (bool false) "false"
  | number {x : Float} {text : String} : ShowsNumber x.toModel.unpack text.toList →
    Shows (number x) text
  | string (text : String) : Shows (string text) text

/-- A datum shows one text. -/
theorem Shows.unique {a : Datum} {first second : String} (shows : Shows a first)
    (also : Shows a second) :
    first = second := by
  cases shows with
  | nil | true | false | string =>
    cases also
    rfl
  | number shows =>
    cases also with
    | number also => exact String.toList_inj.mp (shows.unique also)

end Datum

open Datum

/-- What an operator on numbers makes of two numbers; all but comparisons are rounded, and any
division has a result. -/
def arithmetic? : Kind → Option (Float → Float → Datum)
  | .minus => some fun x y => number (x - y)
  | .star => some fun x y => number (x * y)
  | .slash => some fun x y => number (x / y)
  | .greater => some fun x y => bool (x > y)
  | .greaterEqual => some fun x y => bool (x ≥ y)
  | .less => some fun x y => bool (x < y)
  | .lessEqual => some fun x y => bool (x ≤ y)
  | _ => none

/-- What a prefix operator makes of a datum. -/
inductive Turns : Kind → Datum → Except RuntimeFault Datum → Prop where
  | negation {x : Float} : Turns .minus (number x) (.ok (number (-x)))
  | notNumber {a : Datum} : ¬a.IsNumber → Turns .minus a (.error .operandNotNumber)
  | falsey {a : Datum} : a.IsFalsey → Turns .bang a (.ok (bool true))
  | truthy {a : Datum} : ¬a.IsFalsey → Turns .bang a (.ok (bool false))

/-- What a binary operator makes of two data. -/
inductive Joins : Kind → Datum → Datum → Except RuntimeFault Datum → Prop where
  | numbers {kind : Kind} {compute : Float → Float → Datum} {x y : Float} :
    arithmetic? kind = some compute →
    Joins kind (number x) (number y) (.ok (compute x y))
  | notNumbers {kind : Kind} {a b : Datum} : (arithmetic? kind).isSome →
    ¬(a.IsNumber ∧ b.IsNumber) →
    Joins kind a b (.error .operandsNotNumbers)
  | sum {x y : Float} : Joins .plus (number x) (number y) (.ok (number (x + y)))
  | texts {s t : String} : Joins .plus (string s) (string t) (.ok (string (s ++ t)))
  /-- Next to a text, a number counts as the text it shows. -/
  | textNumber {s text : String} {y : Float} : Shows (number y) text →
    Joins .plus (string s) (number y) (.ok (string (s ++ text)))
  | numberText {text t : String} {x : Float} : Shows (number x) text →
    Joins .plus (number x) (string t) (.ok (string (text ++ t)))
  | notAddable {a b : Datum} : ¬(a.IsAddend ∧ b.IsAddend) →
    Joins .plus a b (.error .operandsNotAddable)
  | equal {a : Datum} : Joins .equalEqual a a (.ok (bool true))
  | different {a b : Datum} : a ≠ b → Joins .equalEqual a b (.ok (bool false))
  | notEqual {a : Datum} : Joins .bangEqual a a (.ok (bool false))
  | unequal {a b : Datum} : a ≠ b → Joins .bangEqual a b (.ok (bool true))

/-- An operator makes one thing of a datum. -/
theorem Turns.unique {kind : Kind} {a : Datum} {first second : Except RuntimeFault Datum}
    (turned : Turns kind a first) (also : Turns kind a second) : first = second := by
  cases turned <;> cases also <;> simp_all [IsNumber]

/-- An operator makes one thing of two data. -/
theorem Joins.unique {kind : Kind} {a b : Datum} {first second : Except RuntimeFault Datum}
    (joined : Joins kind a b first) (also : Joins kind a b second) : first = second := by
  -- Rules that share an operator are told apart by the operands.
  cases joined with
  | textNumber shows =>
    cases also with
    | textNumber showsAgain => rw [shows.unique showsAgain]
    | notAddable others => exact absurd (by simp [IsAddend, IsNumber]) others
    | notNumbers known => simp [arithmetic?] at known
  | numberText shows =>
    cases also with
    | numberText showsAgain => rw [shows.unique showsAgain]
    | notAddable others => exact absurd (by simp [IsAddend, IsNumber]) others
    | notNumbers known => simp [arithmetic?] at known
  | _ => cases also <;> simp_all [arithmetic?, IsNumber, IsAddend]

/-- A prefix operator has one fault. -/
theorem Turns.fault_eq {kind : Kind} {a : Datum} {result : Except RuntimeFault Datum}
    (turned : Turns kind a result) {fault : RuntimeFault} (failed : result = .error fault) :
    fault = .operandNotNumber := by
  cases turned <;> cases failed
  rfl

/-- A binary operator has two faults. -/
theorem Joins.fault_cases {kind : Kind} {a b : Datum} {result : Except RuntimeFault Datum}
    (joined : Joins kind a b result) {fault : RuntimeFault} (failed : result = .error fault) :
    fault = .operandsNotNumbers ∨ fault = .operandsNotAddable := by
  cases joined <;> cases failed
  · exact .inl rfl
  · exact .inr rfl

/-- The result of an operation, its fault blamed on a token. -/
def blamedOn (token : Token) (result : Except RuntimeFault Datum) : Except RuntimeError Datum :=
  result.mapError fun fault => { blamed := token, fault }

end Reference

open Reference Reference.Datum

namespace Value

/-- The datum that a value stands for; the sign of an undefined number is not part of it. -/
inductive Denotes : Value → Datum → Prop where
  | nil : Denotes nil .nil
  | bool (truth : Bool) : Denotes (bool truth) (.bool truth)
  | number {x : Double} {value : Float} : x.value = value → Denotes (number x) (.number value)
  | string (text : String) : Denotes (string text) (.string text)

/-- The values that programs compute with stand for data. -/
theorem exists_denotes {a : Value} (proper : a.isProper) : ∃ datum, a.Denotes datum := by
  cases a with
  | nil => exact ⟨_, .nil⟩
  | bool truth => exact ⟨_, .bool truth⟩
  | number x => exact ⟨_, .number rfl⟩
  | string text => exact ⟨_, .string text⟩
  | int | null | token | garbled | loaded => cases proper

namespace Denotes

variable {a b : Value} {datum other : Datum}

/-- A value stands for one datum. -/
theorem unique (denotes : a.Denotes datum) (also : a.Denotes other) : datum = other := by
  cases denotes with
  | nil | bool | string =>
    cases also
    rfl
  | number value =>
    cases also with
    | number same => rw [← value, ← same]

/-- What stands for a datum can be shown. -/
theorem isPlain (denotes : a.Denotes datum) : a.isPlain := by
  cases denotes with
  | bool truth => cases truth <;> rfl
  | nil | number | string => rfl

/-- What is shown of a value is what its datum shows. -/
theorem shown [Host] (denotes : a.Denotes datum) :
    ∃ text : String, Exec.shown a = .ok (.plain text) ∧ datum.Shows text := by
  cases denotes with
  | nil => exact ⟨_, rfl, .nil⟩
  | bool truth =>
    cases truth with
    | true => exact ⟨_, rfl, .true⟩
    | false => exact ⟨_, rfl, .false⟩
  | @number x _ same => exact ⟨_, rfl, .number (same ▸ Number.shows_display x.value)⟩
  | string text => exact ⟨_, rfl, .string text⟩

/-- A value counts as true unless its datum counts as false. -/
theorem isTruthy (denotes : a.Denotes datum) : a.isTruthy = true ↔ ¬datum.IsFalsey := by
  cases denotes <;> simp [Value.isTruthy, IsFalsey]

/-- Values are equal if they stand for one datum. -/
theorem isEqual (denotes : a.Denotes datum) (others : b.Denotes other) :
    a.isEqual b = true ↔ datum = other := by
  cases denotes with
  | nil | bool | string => cases others <;> simp [Value.isEqual]
  | number same =>
    cases others with
    | number otherSame => rw [Value.isEqual, Double.isSame_iff, Datum.number.injEq, same, otherSame]
    | nil | bool | string => simp [Value.isEqual]

end Denotes

end Value

namespace Exec

open Value

variable {operator : Token} {a b : Value} {x y : Datum}

/-- How a result stands for another: by what it gives, or by the error that it ends with. -/
inductive Stands {α β : Type} (related : α → β → Prop) :
    Except Halt α → Except RuntimeError β → Prop where
  | ok {value : α} {datum : β} : related value datum → Stands related (.ok value) (.ok datum)
  | failed (error : RuntimeError) : Stands related (.error (.failed error)) (.error error)

/-- A prefix operator makes of a value what the rules say. -/
theorem turns_applyUnary (isPrefix : operator.kind ∈ Grammar.prefixOperators)
    (denotes : a.Denotes x) :
    ∃ result, Turns operator.kind x result ∧
      Stands Denotes (applyUnary operator a) (blamedOn operator result) := by
  simp only [Grammar.prefixOperators, List.mem_cons, List.not_mem_nil, or_false] at isPrefix
  -- Negating a truth never fails, negating a value fails unless it is a number.
  rcases isPrefix with is | is
  · rw [applyUnary, Mark.kind_token, is]
    have truth := denotes.isTruthy
    cases truthy : a.isTruthy with
    | true => exact ⟨_, .truthy (truth.mp truthy), .ok (truthy ▸ .bool false)⟩
    | false => exact ⟨_, .falsey (by simpa [truthy] using truth), .ok (truthy ▸ .bool true)⟩
  · rw [applyUnary, Mark.kind_token, is]
    cases denotes with
    | @number x value same =>
      refine ⟨_, .negation, .ok (.number ?_)⟩
      rw [Double.negate, Double.value_signed, same]
    | nil | bool | string => exact ⟨_, .notNumber (by simp [IsNumber]), .failed _⟩

variable (left : a.Denotes x) (right : b.Denotes y)

include left right

/-- An operator on numbers makes of two values what the rules say. -/
theorem joins_arithmetic {kind : Kind} {compute : Float → Float → Datum}
    (known : arithmetic? kind = some compute) {result : Double → Double → Value}
    (meets : ∀ x y : Double, (result x y).Denotes (compute x.value y.value)) :
    ∃ outcome, Joins kind x y outcome ∧
      Stands Denotes (arithmetic operator a b result) (blamedOn operator outcome) := by
  -- Two numbers are the only operands that are computed with.
  cases left with
  | number same =>
    cases right with
    | number others => exact ⟨_, .numbers known, .ok (by rw [← same, ← others]; exact meets _ _)⟩
    | nil | bool | string =>
      exact ⟨_, .notNumbers (by simp [known]) (by simp [IsNumber]), .failed _⟩
  | nil | bool | string => exact ⟨_, .notNumbers (by simp [known]) (by simp [IsNumber]), .failed _⟩

/-- Addition makes of two values what the rules say. -/
theorem joins_addition [Host] :
    ∃ outcome, Joins .plus x y outcome ∧
      Stands Denotes (addition operator a b) (blamedOn operator outcome) := by
  -- Numbers add up, texts join, and a number beside a text is joined as it shows.
  cases left with
  | @number m _ same =>
    cases right with
    | number others =>
      refine ⟨_, .sum, .ok (.number ?_)⟩
      rw [Double.value_signed, same, others]
    | string text =>
      exact ⟨_, .numberText (.number (same ▸ Number.shows_display m.value)), .ok (.string _)⟩
    | nil | bool => exact ⟨_, .notAddable (by simp [IsAddend, IsNumber]), .failed _⟩
  | string text =>
    cases right with
    | @number n _ others =>
      exact ⟨_, .textNumber (.number (others ▸ Number.shows_display n.value)), .ok (.string _)⟩
    | string => exact ⟨_, .texts, .ok (.string _)⟩
    | nil | bool => exact ⟨_, .notAddable (by simp [IsAddend, IsNumber]), .failed _⟩
  | nil | bool => exact ⟨_, .notAddable (by simp [IsAddend, IsNumber]), .failed _⟩

/-- A binary operator makes of two values what the rules say. -/
theorem joins_applyBinary [Host] {level : Grammar.Level}
    (isBinary : operator.kind ∈ level.operators) :
    ∃ outcome, Joins operator.kind x y outcome ∧
      Stands Denotes (applyBinary operator a b) (blamedOn operator outcome) := by
  have equality := left.isEqual right
  -- The levels list all operators that can be applied, each with its own rule.
  rw [applyBinary, Mark.kind_token]
  cases level <;> simp only [Grammar.Level.operators, List.mem_cons, List.not_mem_nil, or_false]
    at isBinary
  case equality =>
    rw [compared_of_isPlain left.isPlain]
    rcases isBinary with is | is <;> rw [is]
    · cases equal : a.isEqual b with
      | true =>
        obtain rfl := equality.mp equal
        exact ⟨_, .notEqual, .ok (.bool _)⟩
      | false => exact ⟨_, .unequal fun same => by simp [equality.mpr same] at equal, .ok (.bool _)⟩
    · cases equal : a.isEqual b with
      | true =>
        obtain rfl := equality.mp equal
        exact ⟨_, .equal, .ok (.bool _)⟩
      | false =>
        exact ⟨_, .different fun same => by simp [equality.mpr same] at equal, .ok (.bool _)⟩
  -- The others take numbers only, apart from the sign that also joins texts.
  case comparison =>
    rcases isBinary with is | is | is | is <;> rw [is]
    all_goals exact joins_arithmetic left right rfl fun _ _ => .bool _
  case term =>
    rcases isBinary with is | is <;> rw [is]
    · exact joins_arithmetic left right rfl fun _ _ => .number (Double.value_signed _ _)
    · exact joins_addition left right
  case factor =>
    rcases isBinary with is | is <;> rw [is]
    · exact joins_arithmetic left right rfl fun x y => .number (Double.value_divide _ x y)
    · exact joins_arithmetic left right rfl fun _ _ => .number (Double.value_signed _ _)

end Exec

end LoxLang
