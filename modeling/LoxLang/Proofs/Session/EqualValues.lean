import LoxLang.Proofs.Execution.Substitution
import LoxLang.Proofs.Session.Likeness

/-!
Values that are equal are indistinguishable: no program shows which of them its variables hold.
-/

namespace LoxLang

open Reference

namespace Value

/-- Equality is an equivalence on the values that programs compute with. -/
theorem isEqual_equivalence :
    Equivalence fun value other : { value : Value // value.isProper = true } =>
      value.1.isEqual other.1 = true := by
  -- On these values equality is likeness, and of numbers that is to have one value.
  constructor
  · rintro ⟨a, proper⟩
    exact (isEqual_iff_alike proper).mpr (.refl a)
  · rintro ⟨a, proper⟩ ⟨b, otherProper⟩ equal
    rw [isEqual_iff_alike otherProper]
    cases (isEqual_iff_alike proper).mp equal with
    | refl => exact .refl _
    | number same => exact .number same.symm
  · rintro ⟨a, proper⟩ ⟨b, otherProper⟩ ⟨c, _⟩ equal further
    rw [isEqual_iff_alike otherProper] at further
    rw [isEqual_iff_alike proper]
    cases (isEqual_iff_alike proper).mp equal with
    | refl => exact further
    | number same =>
      cases further with
      | refl => exact .number same
      | number others => exact .number (same.trans others)

end Value

namespace Bindings

/-- Whether bindings bind the same names, in whatever order, to values that are equal. -/
def Equal (bindings others : Bindings) : Prop :=
  ∀ name, Option.Rel (fun value other => value.isEqual other = true) (bindings.get? name)
    (others.get? name)

/-- Whether all the values are ones that a program can compute with. -/
def Proper (bindings : Bindings) : Prop :=
  ∀ binding ∈ bindings, binding.2.isProper = true

/-- Bindings to values that programs compute with are equal if they match up to likeness. -/
theorem Proper.equal_iff {bindings others : Bindings} (proper : bindings.Proper) :
    bindings.Equal others ↔ Env.Matches Value.Alike bindings.toEnv others.toEnv := by
  refine forall_congr' fun name => ?_
  rw [lookup_toEnv, lookup_toEnv]
  -- What is bound on the first side is proper, so equality can be read as likeness.
  cases bound : bindings.get? name with
  | none => cases others.get? name <;> simp
  | some value =>
    cases others.get? name with
    | none => simp
    | some other =>
      rw [Option.rel_some_some, Option.rel_some_some,
        Value.isEqual_iff_alike (proper _ (mem_of_get? bound))]

end Bindings

namespace Session

/-- Where all variables hold values that programs compute with, they do so after a text was run. -/
theorem holds_run [Host] {session : Session} (holds : session.machine.forest.Holds (·.isProper))
    (source : String) : (session.run source).1.machine.forest.Holds (·.isProper) := by
  -- Reading a text changes no variable.
  have read := (Tells.parse session source).forest
  rw [run_eq]
  split
  case isTrue => rwa [read]
  case isFalse unflagged =>
    -- A text that is run has no diagnostic, and its program is safe.
    obtain ⟨made, within⟩ :=
      parseSource_madeOf (clean_of_unflagged unflagged) (supplies_proper source)
    rw [← read] at holds
    obtain ⟨ended, interpreted, kept, _⟩ :=
      interpret_of_safe (Exec.safe_executeAll Exec.sound_isProper made within) holds
    rwa [interpreted]

/--
Values that are equal are indistinguishable.

Equality is an equivalence on nil, booleans, numbers and strings. Numbers are equal if both are
undefined, or if they compare equal and have the same sign; so the two zeros differ. Sessions
that start from the same names, bound to values that are equal, run every text without a
failure. They show the same on their channels, have the same flags, and again bind the same
names to values that are equal.
-/
theorem equal_values_are_indistinguishable [Host] :
    (Equivalence fun value other : { value : Value // value.isProper = true } =>
      value.1.isEqual other.1 = true) ∧
    (∀ x y : Double, (Value.number x).isEqual (.number y) = true ↔
      (x.value.isNaN = true ∧ y.value.isNaN = true) ∨
        ((x.value == y.value) = true ∧ Number.isNegative x.value = Number.isNegative y.value)) ∧
    (Value.number (.ofFloat (-0.0))).isEqual (.number (.ofFloat 0.0)) = false ∧
    ∀ (debugLevel : Nat) (source : String) (globals others : Bindings),
      globals.Proper → globals.Equal others →
      ∃ ended otherEnded, (start debugLevel globals).run source = (ended, none) ∧
        (start debugLevel others).run source = (otherEnded, none) ∧
        Event.output otherEnded.drain.2 = Event.output ended.drain.2 ∧
        Event.errors otherEnded.drain.2 = Event.errors ended.drain.2 ∧
        otherEnded.flags = ended.flags ∧ ended.globals.Equal otherEnded.globals := by
  refine ⟨Value.isEqual_equivalence, Value.isEqual_number, by decide, ?_⟩
  intro debugLevel source globals others proper equal
  -- The sessions see values that can take each other's place, and that is all that
  -- a run depends on.
  obtain ⟨alike, failures⟩ :=
    (alike_start (proper.equal_iff.mp equal) debugLevel).run Exec.Interchangeable.alike source
  obtain ⟨output, errors⟩ := alike.shown
  have holds : (start debugLevel globals).machine.forest.Holds (·.isProper) := .root proper
  have plain : (start debugLevel globals).machine.forest.Holds (·.isPlain) :=
    fun scope pair member => Value.isPlain_of_isProper (holds scope pair member)
  have unfailing := (run_of_plain plain source).1
  rw [unfailing, Option.isNone_none, Option.isNone_iff_eq_none] at failures
  refine ⟨_, _, Prod.ext rfl unfailing, Prod.ext rfl failures, output, errors, alike.flags, ?_⟩
  -- What the variables hold in the end is proper again, so that equality can be
  -- read off the scopes.
  have stillProper : ((start debugLevel globals).run source).1.globals.Proper :=
    holds_run holds source globalScope
  exact stillProper.equal_iff.mpr (alike.globals (current_run ..) (current_run ..))

/-- Undefined numbers of both signs are shown alike, and the sign of neither comes
to show in a quotient. -/
theorem equal_values_are_indistinguishable_undefined :
    let globals : Bindings :=
      [(.word "a", .number (.signed false (0.0 / 0.0))), (.word "b", .string "x")]
    let others : Bindings :=
      [(.word "b", .string "x"), (.word "a", .number (.signed true (0.0 / 0.0)))]
    globals.Proper ∧ globals.Equal others ∧
      ∃ ended otherEnded, (start 0 globals).run "print a + b; a = a / -0;" = (ended, none) ∧
        (start 0 others).run "print a + b; a = a / -0;" = (otherEnded, none) ∧
        Event.output otherEnded.drain.2 = Event.output ended.drain.2 ∧
        ended.globals.Equal otherEnded.globals := by
  intro globals others
  have proper : globals.Proper := by
    intro binding member
    rcases List.mem_pair.mp member with rfl | rfl <;> rfl
  have undefined : (Value.number (.signed false (0.0 / 0.0))).isEqual
      (.number (.signed true (0.0 / 0.0))) =
      true := by decide
  have equal : globals.Equal others := by
    intro name
    by_cases isFirst : name = .word "a"
    · subst isFirst
      exact .some undefined
    · by_cases isSecond : name = .word "b"
      · subst isSecond
        exact .some rfl
      · -- No other name is bound.
        have notFirst := beq_eq_false_iff_ne.mpr isFirst
        have notSecond := beq_eq_false_iff_ne.mpr isSecond
        have free : globals.get? name = none ∧ others.get? name = none := by
          simp [globals, others, Bindings.get?, List.lookup_cons, notFirst, notSecond]
        rw [free.1, free.2]
        exact .none
  obtain ⟨_, _, _, runs⟩ := equal_values_are_indistinguishable
  obtain ⟨ended, otherEnded, ran, otherRan, output, _, _, final⟩ :=
    runs 0 "print a + b; a = a / -0;" globals others proper equal
  exact ⟨proper, equal, ended, otherEnded, ran, otherRan, output, final⟩

end Session

end LoxLang
