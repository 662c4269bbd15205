import Mathlib.Algebra.Order.Field.Power
import Mathlib.Tactic.FieldSimp
import Mathlib.Tactic.Linarith
import Mathlib.Tactic.Ring
import LoxLang.Decimal.Shortest

/-!
Rounding intervals as sets of rationals: the shortest decimal of a binary number lies in
the number's own interval.
-/

namespace LoxLang.Decimal

/-- A power with any exponent is the quotient of two whole powers. -/
theorem zpow_eq_div (base : Nat) (exponent : Int) :
    (base : ℚ) ^ exponent =
      (Nat.pow base exponent.toNat : ℕ) / (Nat.pow base (-exponent).toNat : ℕ) := by
  -- One of the two whole powers is always one.
  obtain ⟨n, rfl | rfl⟩ := exponent.eq_nat_or_neg
  · simp
  · simp

/-- Multiples of a power are multiples of any lower one. -/
theorem exists_multiple {base : Nat} (positive : 0 < base) (count : Nat) {exponent coarser : Int}
    (le : exponent ≤ coarser) :
    ∃ more : ℕ, (count * base ^ coarser : ℚ) = more * base ^ exponent := by
  refine ⟨count * base ^ (coarser - exponent).toNat, ?_⟩
  have nonzero : (base : ℚ) ≠ 0 := Nat.cast_ne_zero.mpr positive.ne'
  have power : (base : ℚ) ^ coarser = base ^ (coarser - exponent).toNat * base ^ exponent := by
    rw [← zpow_natCast, ← zpow_add₀ nonzero]
    congr 1
    omega
  rw [power]
  push_cast
  ring

/-- The number that a decimal stands for. -/
def Scaled.value (d : Scaled) : ℚ :=
  d.coefficient * 10 ^ d.exponent

/-- The number that a significand and an exponent stand for. -/
def Binary.value (b : Binary) : ℚ :=
  b.significand * 2 ^ b.exponent

namespace Interval

/-- The lower end of an interval. -/
def lower (i : Interval) : ℚ :=
  i.low / i.denominator

/-- The upper end of an interval. -/
def upper (i : Interval) : ℚ :=
  i.high / i.denominator

/-- Whether a number lies in an interval; at an end it does only if the interval is closed. -/
structure Holds (i : Interval) (v : ℚ) : Prop where
  above : i.lower ≤ v
  below : v ≤ i.upper
  inside : i.closed = false → i.lower < v ∧ v < i.upper

/-- A number between the ends lies in the interval, closed or not. -/
theorem holds_of_between {i : Interval} {v : ℚ} (above : i.lower < v) (below : v < i.upper) :
    i.Holds v :=
  ⟨above.le, below.le, fun _ => ⟨above, below⟩⟩

/-- What lies between two numbers of an interval lies in it. -/
theorem Holds.between {i : Interval} {low v high : ℚ} (first : i.Holds low) (second : i.Holds high)
    (above : low ≤ v) (below : v ≤ high) : i.Holds v where
  above := first.above.trans above
  below := below.trans second.below
  inside opened := ⟨(first.inside opened).1.trans_le above, below.trans_lt (second.inside opened).2⟩

end Interval

/-- A decimal as a fraction. -/
theorem Scaled.value_eq_div (d : Scaled) :
    d.value = (d.coefficient * Nat.pow 10 d.exponent.toNat : ℕ) /
      (Nat.pow 10 (-d.exponent).toNat : ℕ) := by
  rw [value, Nat.cast_mul, mul_div_assoc, ← zpow_eq_div]
  rfl

section

variable (d : Scaled) (numerator : Nat) {denominator : Nat} (positive : 0 < denominator)

include positive

/-- Brought to whole numbers, a decimal and a fraction that is at most as great stay
in this order. -/
theorem Scaled.sides_le :
    (d.sides numerator denominator).2 ≤ (d.sides numerator denominator).1 ↔
      (numerator : ℚ) / denominator ≤ d.value := by
  -- The denominators are multiplied out, and both are positive.
  have scale : (0 : ℚ) < (Nat.pow 10 (-d.exponent).toNat : ℕ) := by
    exact_mod_cast Nat.pow_pos (by decide)
  have whole : (0 : ℚ) < denominator := by exact_mod_cast positive
  rw [value_eq_div, div_le_div_iff₀ whole scale, ← Nat.cast_mul, ← Nat.cast_mul, Nat.cast_le]
  rfl

/-- Brought to whole numbers, a decimal and a fraction that is at least as great
stay in this order. -/
theorem Scaled.le_sides :
    (d.sides numerator denominator).1 ≤ (d.sides numerator denominator).2 ↔
      d.value ≤ (numerator : ℚ) / denominator := by
  have scale : (0 : ℚ) < (Nat.pow 10 (-d.exponent).toNat : ℕ) := by
    exact_mod_cast Nat.pow_pos (by decide)
  have whole : (0 : ℚ) < denominator := by exact_mod_cast positive
  rw [value_eq_div, div_le_div_iff₀ scale whole, ← Nat.cast_mul, ← Nat.cast_mul, Nat.cast_le]
  rfl

end

/-- A decimal passes the test for an interval if it lies in it. -/
theorem Interval.contains_iff {i : Interval} (positive : 0 < i.denominator) (d : Scaled) :
    i.contains d = true ↔ i.Holds d.value := by
  cases closed : i.closed with
  | true =>
    simp only [contains, closed, if_true, Bool.and_eq_true, decide_eq_true_eq]
    rw [d.sides_le i.low positive, d.le_sides i.high positive]
    exact ⟨fun contained => ⟨contained.1, contained.2, by simp [closed]⟩, fun holds =>
      ⟨holds.above, holds.below⟩⟩
  | false =>
    -- Being strictly above an end is not being at most the end.
    simp only [contains, closed, Bool.false_eq_true, if_false, Bool.and_eq_true, decide_eq_true_eq]
    rw [← Nat.not_le, ← Nat.not_le, d.le_sides i.low positive, d.sides_le i.high positive,
      not_le, not_le]
    exact ⟨fun contained => holds_of_between contained.1 contained.2, fun holds =>
      holds.inside closed⟩

/-- The nearer of two decimals is one of them. -/
theorem Interval.nearer_eq (i : Interval) (lower upper : Scaled) :
    i.nearer lower upper = lower ∨ i.nearer lower upper = upper := by
  simp only [nearer]
  split_ifs
  · exact .inl rfl
  · exact .inr rfl
  · exact .inl rfl
  · exact .inr rfl

/-- What is taken from a grid has passed the test for the interval. -/
theorem Interval.contains_of_onGrid? {i : Interval} {exponent : Int} {d : Scaled}
    (found : i.onGrid? exponent = some d) :
    i.contains d = true := by
  -- It is one of two neighbours, and only those that pass are chosen from.
  simp only [onGrid?] at found
  generalize { i.floorAt exponent with coefficient := (i.floorAt exponent).coefficient + 1 } =
    above at found
  generalize i.floorAt exponent = below at found
  cases lower : i.contains below with
  | true =>
    cases upper : i.contains above with
    | true =>
      simp only [lower, upper] at found
      obtain rfl := Option.some.inj found
      rcases i.nearer_eq below above with same | same
      · rw [same, lower]
      · rw [same, upper]
    | false =>
      simp only [lower, upper] at found
      exact Option.some.inj found ▸ lower
  | false =>
    cases upper : i.contains above with
    | true =>
      simp only [lower, upper] at found
      exact Option.some.inj found ▸ upper
    | false =>
      simp only [lower, upper] at found
      cases found

namespace Binary

variable (b : Binary)

/-- The denominator of an interval is a power of two. -/
theorem interval_denominator_pos : 0 < b.interval.denominator :=
  Nat.pow_pos (by decide)

/-- A count of quarters of the gap, over the denominator of the interval. -/
theorem quarters_div (count : Nat) :
    ((count * Nat.pow 2 (b.exponent - 2).toNat : ℕ) : ℚ) / b.interval.denominator =
      count / 4 * 2 ^ b.exponent := by
  have power := zpow_eq_div 2 (b.exponent - 2)
  have quarter : (2 : ℚ) ^ (b.exponent - 2) = 2 ^ b.exponent / 4 := by
    rw [zpow_sub₀ (by norm_num)]
    norm_num
  calc ((count * Nat.pow 2 (b.exponent - 2).toNat : ℕ) : ℚ) / b.interval.denominator
    _ = count * ((Nat.pow 2 (b.exponent - 2).toNat : ℕ) /
      (Nat.pow 2 (-(b.exponent - 2)).toNat : ℕ)) := by
      rw [Nat.cast_mul, mul_div_assoc]
      rfl
    _ = count * 2 ^ (b.exponent - 2) := by rw [← power, Nat.cast_ofNat]
    _ = count / 4 * 2 ^ b.exponent := by rw [quarter]; ring

/-- The middle of an interval is the number. -/
theorem middle_interval : (b.interval.mid : ℚ) / b.interval.denominator = b.value := by
  have counted : (b.interval.mid : ℚ) / b.interval.denominator =
      (4 * b.significand : ℕ) / 4 * 2 ^ b.exponent :=
    b.quarters_div _
  rw [counted, value]
  push_cast
  ring

/-- The upper end is half a gap above the number. -/
theorem upper_interval : b.interval.upper = (b.significand + 1 / 2) * 2 ^ b.exponent := by
  have counted : b.interval.upper = (4 * b.significand + 2 : ℕ) / 4 * 2 ^ b.exponent :=
    b.quarters_div _
  rw [counted]
  push_cast
  ring

variable {b} (positive : 0 < b.significand)

include positive

/-- The lower end is half a gap below the number, or half of a gap that is only half as wide. -/
theorem lower_interval :
    b.interval.lower =
      (b.significand - if b.narrowBelow then 1 / 4 else 1 / 2) * 2 ^ b.exponent := by
  have counted : b.interval.lower =
      (4 * b.significand - if b.narrowBelow then 1 else 2 : ℕ) / 4 * 2 ^ b.exponent :=
    b.quarters_div _
  have room : (if b.narrowBelow then 1 else 2) ≤ 4 * b.significand := by
    split <;> omega
  rw [counted, Nat.cast_sub room]
  split
  · push_cast
    ring
  · push_cast
    ring

/-- A number lies above the lower end of its interval. -/
theorem lower_lt_value : b.interval.lower < b.value := by
  have scale : (0 : ℚ) < 2 ^ b.exponent := by positivity
  rw [lower_interval positive, value, mul_lt_mul_iff_left₀ scale]
  split
  · linarith
  · linarith

omit positive in
/-- A number lies below the upper end of its interval. -/
theorem value_lt_upper : b.value < b.interval.upper := by
  have scale : (0 : ℚ) < 2 ^ b.exponent := by positivity
  rw [upper_interval, value, mul_lt_mul_iff_left₀ scale]
  linarith

/-- The lower end of an interval is positive. -/
theorem lower_pos : 0 < b.interval.lower := by
  have least : (1 : ℚ) ≤ b.significand := by exact_mod_cast positive
  rw [lower_interval positive]
  apply mul_pos _ (by positivity)
  split
  · linarith
  · linarith

omit positive in
/-- All digits of a number stand for the number itself. -/
theorem value_exact : b.exact.value = b.value := by
  -- Halves are turned into tenths by as many fives.
  obtain ⟨n, same | same⟩ := b.exponent.eq_nat_or_neg
  · simp [exact, Scaled.value, value, same]
  · have tenths : (10 : ℚ) ^ n = 5 ^ n * 2 ^ n := by rw [← mul_pow]; norm_num
    simp [exact, Scaled.value, value, same, tenths]
    field_simp

/-- The shortest decimal of a number lies in the number's interval. -/
theorem holds_shortest : b.interval.Holds b.shortest.value := by
  rw [shortest]
  cases found : (List.range maxDigits).findSome? fun n : ℕ =>
    b.interval.onGrid? (b.interval.magnitude - n) with
  | none =>
    -- The exact digits stand for the number in the middle.
    rw [Option.getD_none, value_exact]
    exact Interval.holds_of_between (lower_lt_value positive) value_lt_upper
  | some d =>
    obtain ⟨n, _, taken⟩ := List.exists_of_findSome?_eq_some found
    exact (Interval.contains_iff b.interval_denominator_pos d).mp
      (Interval.contains_of_onGrid? taken)

end Binary

end LoxLang.Decimal
