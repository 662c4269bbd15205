import LoxLang.Proofs.Execution.Mirroring
import LoxLang.Proofs.Value.Display

/-!
Equal values can take each other's place in every operation.

Equal numbers differ at most in the sign of an undefined one, and no operation lets
that sign show in a value.
-/

namespace LoxLang

namespace Exec

/-- A result can take its own place. -/
theorem Agree.same (result : Except Halt Value) : Agree Value.Alike result result := by
  cases result with
  | ok value => exact .ok (.refl value)
  | error halt => exact .error (.refl halt)

section

variable (operator : Mark) {a b c d : Value} (first : a.Alike b) (second : c.Alike d)

include first

/-- Operands that are alike are negated alike, as numbers and as truth values. -/
theorem agree_applyUnary : Agree Value.Alike (applyUnary operator a) (applyUnary operator b) := by
  cases first with
  | refl => exact .same _
  | @number x y same =>
    rw [applyUnary, applyUnary]
    cases operator.kind with
    | error halt => exact .error (.refl halt)
    | ok kind =>
      -- Only the sign in front of a number looks at what the number is.
      cases kind with
      | minus =>
        refine .ok (.number ?_)
        rw [Double.negate, Double.negate, Double.value_signed, Double.value_signed, same]
      | bang => exact .ok (.refl (.bool false))
      | _ => exact .error (.refl _)

include second

/-- Operands that are alike have results that are alike, if the operation on numbers looks
at their values only. -/
theorem agree_arithmetic {result : Double → Double → Value}
    (meets : ∀ {x x' y y' : Double}, x.value = x'.value → y.value = y'.value →
      (result x y).Alike (result x' y')) :
    Agree Value.Alike (arithmetic operator a c result) (arithmetic operator b d result) := by
  -- Values that are alike and not the same are numbers; anything else fails on both sides.
  cases first with
  | number same =>
    cases second with
    | number others => exact .ok (meets same others)
    | refl =>
      cases c with
      | number => exact .ok (meets same rfl)
      | nil | bool | string | int | null | token | garbled | loaded => exact .same _
  | refl =>
    cases second with
    | refl => exact .same _
    | number others =>
      cases a with
      | number => exact .ok (meets rfl others)
      | nil | bool | string | int | null | token | garbled | loaded => exact .same _

/-- Operands that are alike are added or joined alike. -/
theorem agree_addition [Host] :
    Agree Value.Alike (addition operator a c) (addition operator b d) := by
  -- Next to a text, a number counts as what it shows, and that is the same for both.
  cases first with
  | @number x x' same =>
    have shows : Number.display x.value = Number.display x'.value := by rw [same]
    cases second with
    | number others =>
      refine .ok (.number ?_)
      rw [Double.value_signed, Double.value_signed, same, others]
    | refl =>
      cases c with
      | number y =>
        refine .ok (.number ?_)
        rw [Double.value_signed, Double.value_signed, same]
      | string | garbled =>
        simp only [addition, addend?, shows]
        exact .same _
      -- Anything else is refused, with the same complaint.
      | nil | bool | int | null | token | loaded => exact .error (.refl _)
  | refl =>
    cases second with
    | refl => exact .same _
    | @number y y' others =>
      have shows : Number.display y.value = Number.display y'.value := by rw [others]
      cases a with
      | number x =>
        refine .ok (.number ?_)
        rw [Double.value_signed, Double.value_signed, others]
      | string | garbled =>
        simp only [addition, addend?, shows]
        exact .same _
      | nil | bool | int | null | token | loaded => exact .error (.refl _)

/-- Operands that are alike are equal to what they were. -/
theorem compared_eq [Host] : compared b d = compared a c := by
  have identity {x x' y y' : Double} (same : x.value = x'.value) (others : y.value = y'.value) :
      x'.isSame y' = x.isSame y := by
    rw [Bool.eq_iff_iff, Double.isSame_iff, Double.isSame_iff, same, others]
  -- Only numbers can be alike without being the same, and they are compared by value.
  cases first with
  | number same =>
    cases second with
    | number others => exact congrArg Except.ok (identity same others)
    | refl =>
      cases c with
      | number => exact congrArg Except.ok (identity same rfl)
      | nil | bool | string | int | null | token | garbled | loaded => rfl
  | refl =>
    cases second with
    | refl => rfl
    | number others =>
      cases a with
      | number => exact congrArg Except.ok (identity rfl others)
      | nil | bool | string | int | null | token | garbled | loaded => rfl

/-- Operands that are alike have results that are alike, whatever the operator. -/
theorem agree_applyBinary [Host] :
    Agree Value.Alike (applyBinary operator a c) (applyBinary operator b d) := by
  rw [applyBinary, applyBinary, compared_eq first second]
  -- An operator sees a number by its value only, never by its spelling.
  cases operator.kind with
  | error halt => exact .error (.refl halt)
  | ok kind =>
    cases kind with
    | plus => exact agree_addition operator first second
    | minus =>
      refine agree_arithmetic operator first second fun same others => .number ?_
      rw [Double.value_signed, Double.value_signed, same, others]
    | star =>
      refine agree_arithmetic operator first second fun same others => .number ?_
      rw [Double.value_signed, Double.value_signed, same, others]
    | slash =>
      refine agree_arithmetic operator first second fun same others => .number ?_
      rw [Double.value_divide, Double.value_divide, same, others]
    | greater | greaterEqual | less | lessEqual =>
      refine agree_arithmetic operator first second fun same others => ?_
      rw [same, others]
      exact .refl _
    | equalEqual | bangEqual => exact .same _
    | _ => exact .error (.refl _)

end

/-- Values that are alike can take each other's place. -/
theorem Interchangeable.alike [Host] : Interchangeable Value.Alike where
  refl := .refl
  shows same := by
    cases same with
    | refl => rfl
    | number same => exact congrArg (fun x => Except.ok (Text.plain (Number.display x))) same.symm
  typeName same := same.display.1.symm
  unary operator _ _ same := agree_applyUnary operator same
  binary operator _ _ _ _ first second := agree_applyBinary operator first second

end Exec

end LoxLang
