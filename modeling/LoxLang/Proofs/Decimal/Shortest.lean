import Mathlib.Algebra.Order.Floor.Semifield
import Mathlib.Data.Rat.Floor
import Mathlib.Tactic.LinearCombination
import LoxLang.Proofs.Decimal.Nearest

/-!
The shortest decimal of a binary number.

A decimal is written with few digits if it is a multiple of a great power of ten. Of the
multiples that read back as a number, the shortest decimal is the nearest to it.
-/

namespace LoxLang.Decimal

/--
Whether a decimal is, among the multiples of its power of ten that read back, the
nearest to a number.

Where another one is as near, the even one is taken.
-/
structure IsClosest (back : ℚ → Prop) (x : ℚ) (d : Scaled) : Prop where
  reads : back d.value
  nearest : ∀ n : ℕ, back (n * 10 ^ d.exponent) → n ≠ d.coefficient →
    |x - d.value| < |x - n * 10 ^ d.exponent| ∨
      |x - d.value| = |x - n * 10 ^ d.exponent| ∧ d.coefficient % 2 = 0

/-- Whether a decimal is the shortest one that reads back: multiples of greater
powers of ten do not. -/
structure IsShortest (back : ℚ → Prop) (x : ℚ) (d : Scaled) : Prop extends IsClosest back x d where
  coarsest : ∀ n : ℕ, ¬back (n * 10 ^ (d.exponent + 1))

namespace IsShortest

variable {back : ℚ → Prop} {x : ℚ} {d other : Scaled}

/-- No decimal that reads back has a greater power of ten. -/
theorem exponent_le (shortest : IsShortest back x d) (others : back other.value) :
    other.exponent ≤ d.exponent := by
  by_contra greater
  obtain ⟨more, same⟩ :=
    exists_multiple (by norm_num : 0 < 10) other.coefficient (not_le.mp greater)
  rw [Nat.cast_ofNat] at same
  apply shortest.coarsest more
  rwa [← same]

/-- The digits of the shortest decimal do not end with a zero. -/
theorem coefficient_mod_ne_zero (shortest : IsShortest back x d) : d.coefficient % 10 ≠ 0 := by
  intro zero
  apply shortest.coarsest (d.coefficient / 10)
  have whole : ((d.coefficient / 10 : ℕ) : ℚ) * 10 = d.coefficient := by
    exact_mod_cast Nat.div_mul_cancel (Nat.dvd_of_mod_eq_zero zero)
  have same : ((d.coefficient / 10 : ℕ) : ℚ) * 10 ^ (d.exponent + 1) = d.value := by
    rw [Scaled.value, ← whole, zpow_add_one₀ (by norm_num)]
    ring
  rw [same]
  exact shortest.reads

/-- There is one shortest decimal. -/
theorem unique (self : back x) (shortest : IsShortest back x d) (also : IsShortest back x other) :
    d = other := by
  have exponents : d.exponent = other.exponent :=
    le_antisymm (also.exponent_le shortest.reads) (shortest.exponent_le also.reads)
  rcases d with ⟨coefficient, exponent⟩
  rcases other with ⟨otherCoefficient, _⟩
  obtain rfl : exponent = _ := exponents
  by_contra differ
  have differ : coefficient ≠ otherCoefficient := by
    rintro rfl
    exact differ rfl
  have scale : (10 : ℚ) ^ exponent ≠ 0 := by positivity
  -- Neither is nearer, so both are even, and the number in their middle is a multiple of
  -- the same power of ten.
  have first := shortest.nearest otherCoefficient also.reads differ.symm
  have second := also.nearest coefficient shortest.reads differ
  simp only [Scaled.value] at first second
  have tie : |x - coefficient * 10 ^ exponent| = |x - otherCoefficient * 10 ^ exponent| := by
    rcases first with less | ⟨same, _⟩
    · rcases second with greater | ⟨same, _⟩
      · exact absurd less greater.le.not_gt
      · exact same.symm
    · exact same
  have even : coefficient % 2 = 0 := (first.resolve_left (by simp [tie])).2
  have otherEven : otherCoefficient % 2 = 0 := (second.resolve_left (by simp [tie])).2
  have apart : (coefficient * 10 ^ exponent : ℚ) ≠ otherCoefficient * 10 ^ exponent := by
    rw [Ne, mul_left_inj' scale, Nat.cast_inj]
    exact differ
  have middle := (abs_sub_eq_iff_of_ne apart).mp tie
  have whole : x = ((coefficient / 2 + otherCoefficient / 2 : ℕ) : ℚ) * 10 ^ exponent := by
    have halves : ((coefficient / 2 + otherCoefficient / 2 : ℕ) : ℚ) * 2 =
        coefficient + otherCoefficient := by
      have : (coefficient / 2 + otherCoefficient / 2) * 2 =
          coefficient + otherCoefficient := by omega
      exact_mod_cast this
    rw [middle]
    linear_combination (-(10 : ℚ) ^ exponent / 2) * halves
  -- The number itself would be the nearest one.
  have other : coefficient / 2 + otherCoefficient / 2 ≠ coefficient := by omega
  have nearer := shortest.nearest _ (by rwa [← whole]) other
  simp only [Scaled.value] at nearer
  rw [← whole, sub_self, abs_zero] at nearer
  have zero : |x - coefficient * 10 ^ exponent| = 0 := by
    rcases nearer with less | ⟨same, _⟩
    · exact absurd less (abs_nonneg _).not_gt
    · exact same
  have otherZero := tie.symm.trans zero
  exact apart ((sub_eq_zero.mp (abs_eq_zero.mp zero)).symm.trans
    (sub_eq_zero.mp (abs_eq_zero.mp otherZero)))

end IsShortest

section

variable {x scale : ℚ} (positive : 0 < scale) {near far : ℕ}

include positive

/-- Of two multiples below a number, the greater is the nearer one. -/
theorem nearer_below (le : near * scale ≤ x) (less : far < near) :
    |x - near * scale| < |x - far * scale| := by
  have multiples : (far * scale : ℚ) < near * scale := by gcongr
  rw [abs_sub_lt_iff_of_gt multiples]
  linarith

/-- Of two multiples above a number, the smaller is the nearer one. -/
theorem nearer_above (le : x ≤ near * scale) (less : near < far) :
    |x - near * scale| < |x - far * scale| := by
  have multiples : (near * scale : ℚ) < far * scale := by gcongr
  rw [abs_sub_lt_iff_of_lt multiples]
  linarith

end

/-- The least double precision number is about half of a power of ten. -/
theorem two_pow_bounds : (2 * 10 ^ 323 : ℚ) < 2 ^ 1074 ∧ (100 * 2 ^ 1074 : ℚ) < 203 * 10 ^ 323 := by
  have above : ((2 * 10 ^ 323 : ℕ) : ℚ) < (2 ^ 1074 : ℕ) := Nat.cast_lt.mpr (by decide +kernel)
  have below : ((100 * 2 ^ 1074 : ℕ) : ℚ) < (203 * 10 ^ 323 : ℕ) :=
    Nat.cast_lt.mpr (by decide +kernel)
  simp only [Nat.cast_mul, Nat.cast_pow, Nat.cast_ofNat] at above below
  exact ⟨above, below⟩

/-- A positive number lies between two powers of ten, as its digits are counted. -/
theorem digitCount_bounds {n : Nat} (positive : 0 < n) :
    ∃ count, digitCount n = count + 1 ∧ 10 ^ count ≤ n ∧ n < 10 ^ (count + 1) := by
  have some : 0 < digitCount n := Nat.length_toDigits_pos
  refine ⟨digitCount n - 1, by omega, ?_, ?_⟩
  · rcases Nat.eq_zero_or_pos (digitCount n - 1) with single | several
    · rw [single]
      exact positive
    · -- One digit less would not do.
      have short : ¬digitCount n ≤ digitCount n - 1 := by omega
      have fits := Nat.length_toDigits_le_iff (b := 10) (n := n) (by decide) several
      exact Nat.not_lt.mp fun less => short (fits.mpr less)
  · rw [Nat.sub_add_cancel some]
    exact (Nat.length_toDigits_le_iff (by decide) some).mp le_rfl

namespace Interval

variable {i : Interval} (filled : 0 < i.mid) (positive : 0 < i.denominator)

include positive

/-- The middle of an interval has the leading digit that is computed for it. -/
theorem magnitude_bounds (filled : 0 < i.mid) :
    (10 : ℚ) ^ i.magnitude ≤ i.mid / i.denominator ∧
      (i.mid / i.denominator : ℚ) < 10 ^ (i.magnitude + 1) := by
  have whole : (0 : ℚ) < i.denominator := Nat.cast_pos.mpr positive
  rw [le_div_iff₀ whole, div_lt_iff₀ whole, magnitude]
  split
  case isTrue large =>
    -- From one on, the whole part has the leading digit.
    obtain ⟨count, counted, above, below⟩ := digitCount_bounds (Nat.div_pos large positive)
    rw [Nat.le_div_iff_mul_le positive] at above
    rw [Nat.div_lt_iff_lt_mul positive] at below
    have lead : ((digitCount (i.mid / i.denominator) : ℕ) : ℤ) - 1 = (count : ℕ) := by omega
    have next : ((count : ℕ) : ℤ) + 1 = (count + 1 : ℕ) := by omega
    rw [lead, next, zpow_natCast, zpow_natCast]
    exact ⟨by exact_mod_cast above, by exact_mod_cast below⟩
  case isFalse small =>
    -- Below one, the denominator is as many times greater as there are zeros up to
    -- the leading digit.
    have ratio : 0 < (i.denominator - 1) / i.mid := Nat.div_pos (by omega) filled
    obtain ⟨count, counted, above, below⟩ := digitCount_bounds ratio
    rw [Nat.le_div_iff_mul_le filled] at above
    rw [Nat.div_lt_iff_lt_mul filled] at below
    have atLeast : 10 ^ count * i.mid < i.denominator := by omega
    have atMost : i.denominator ≤ 10 ^ (count + 1) * i.mid := by omega
    have lead : -((digitCount ((i.denominator - 1) / i.mid) : ℕ) : ℤ) =
        -((count + 1 : ℕ) : ℤ) := by omega
    have next : -((count + 1 : ℕ) : ℤ) + 1 = -((count : ℕ) : ℤ) := by omega
    rw [lead, next, zpow_neg, zpow_neg, zpow_natCast, zpow_natCast]
    constructor
    · rw [inv_mul_le_iff₀ (by positivity)]
      exact_mod_cast atMost
    · rw [lt_inv_mul_iff₀ (by positivity)]
      exact_mod_cast atLeast

/-- How far a decimal is from the middle of an interval, up to a factor that its
power of ten decides. -/
theorem distance_eq (d : Scaled) :
    (i.distance d : ℚ) =
      |(i.mid : ℚ) / i.denominator - d.value| *
        (i.denominator * (Nat.pow 10 (-d.exponent).toNat : ℕ)) := by
  have whole : (0 : ℚ) < i.denominator := Nat.cast_pos.mpr positive
  have tens : (0 : ℚ) < (Nat.pow 10 (-d.exponent).toNat : ℕ) := by
    exact_mod_cast Nat.pow_pos (by decide)
  -- The distance of whole numbers is the one difference of them that is not cut off.
  have differs (a b : ℕ) : ((a - b + (b - a) : ℕ) : ℚ) = |(b : ℚ) - a| := by
    rcases Nat.le_total a b with le | le
    · rw [Nat.sub_eq_zero_of_le le, zero_add, Nat.cast_sub le,
        abs_of_nonneg (sub_nonneg.mpr (Nat.cast_le.mpr le))]
    · rw [Nat.sub_eq_zero_of_le le, add_zero, Nat.cast_sub le, abs_sub_comm,
        abs_of_nonneg (sub_nonneg.mpr (Nat.cast_le.mpr le))]
  have sides : i.distance d =
      (d.sides i.mid i.denominator).1 - (d.sides i.mid i.denominator).2 +
        ((d.sides i.mid i.denominator).2 - (d.sides i.mid i.denominator).1) := rfl
  rw [sides, differs, Scaled.value_eq_div, ← abs_of_pos (mul_pos whole tens), ← abs_mul]
  congr 1
  rw [Scaled.sides]
  push_cast
  field_simp

/-- Which of two multiples of a power of ten is nearer to the middle shows in their distances. -/
theorem distance_lt_iff (first second : ℕ) (exponent : Int) :
    i.distance ⟨first, exponent⟩ < i.distance ⟨second, exponent⟩ ↔
      |(i.mid : ℚ) / i.denominator - first * 10 ^ exponent| <
        |(i.mid : ℚ) / i.denominator - second * 10 ^ exponent| := by
  have whole : (0 : ℚ) < i.denominator := Nat.cast_pos.mpr positive
  have tens : (0 : ℚ) < (Nat.pow 10 (-exponent).toNat : ℕ) := by
    exact_mod_cast Nat.pow_pos (by decide)
  rw [← Nat.cast_lt (α := ℚ), distance_eq positive, distance_eq positive,
    mul_lt_mul_iff_left₀ (mul_pos whole tens)]
  rfl

end Interval

namespace Binary

variable {b : Binary} {exponent : Int}

/-- The multiple of a power of ten at which a grid is searched is the last one that
is not above the number. -/
theorem coefficient_floorAt (b : Binary) (exponent : Int) :
    (b.interval.floorAt exponent).coefficient = ⌊b.value / 10 ^ exponent⌋₊ := by
  have ten : (10 : ℚ) ^ exponent =
      (Nat.pow 10 exponent.toNat : ℕ) / (Nat.pow 10 (-exponent).toNat : ℕ) := by
    rw [← zpow_eq_div, Nat.cast_ofNat]
  rw [Interval.floorAt, ← Nat.floor_div_eq_div (K := ℚ), ← middle_interval, ten]
  push_cast
  rw [div_div_div_eq]

/-- The number lies between the two multiples that are tried. -/
theorem floorAt_bounds (b : Binary) (exponent : Int) :
    ((b.interval.floorAt exponent).coefficient : ℚ) * 10 ^ exponent ≤ b.value ∧
      b.value < ((b.interval.floorAt exponent).coefficient + 1 : ℕ) * 10 ^ exponent := by
  have scale : (0 : ℚ) < 10 ^ exponent := by positivity
  have nonneg : 0 ≤ b.value / 10 ^ exponent := by
    rw [value]
    positivity
  rw [coefficient_floorAt, ← le_div_iff₀ scale, ← div_lt_iff₀ scale, Nat.cast_add_one]
  exact ⟨Nat.floor_le nonneg, Nat.lt_floor_add_one _⟩

variable {low : ℕ}

/-- The last multiple that is not above the number is the closest one if none of
those above beats it. -/
theorem isClosest_below {back : ℚ → Prop} (reads : back (low * 10 ^ exponent))
    (le : low * 10 ^ exponent ≤ b.value)
    (beaten : ∀ n, low < n → back (n * 10 ^ exponent) →
      |b.value - low * 10 ^ exponent| < |b.value - n * 10 ^ exponent| ∨
        |b.value - low * 10 ^ exponent| = |b.value - n * 10 ^ exponent| ∧ low % 2 = 0) :
    IsClosest back b.value { coefficient := low, exponent } := by
  refine ⟨reads, fun n others differ => ?_⟩
  rcases Nat.lt_or_gt_of_ne differ with less | greater
  · exact .inl (nearer_below (by positivity) le less)
  · exact beaten n greater others

/-- The first multiple that is not below the number is the closest one if none of
those below beats it. -/
theorem isClosest_above {back : ℚ → Prop} (reads : back (low * 10 ^ exponent))
    (le : b.value ≤ low * 10 ^ exponent)
    (beaten : ∀ n, n < low → back (n * 10 ^ exponent) →
      |b.value - low * 10 ^ exponent| < |b.value - n * 10 ^ exponent| ∨
        |b.value - low * 10 ^ exponent| = |b.value - n * 10 ^ exponent| ∧ low % 2 = 0) :
    IsClosest back b.value { coefficient := low, exponent } := by
  refine ⟨reads, fun n others differ => ?_⟩
  rcases Nat.lt_or_gt_of_ne differ with less | greater
  · exact beaten n less others
  · exact .inl (nearer_above (by positivity) le greater)

/-- Of the two multiples around the number, if both read back, the closest one is chosen. -/
theorem isClosest_nearer (lowerHolds : b.interval.Holds (low * 10 ^ exponent))
    (upperHolds : b.interval.Holds ((low + 1 : ℕ) * 10 ^ exponent))
    (le : low * 10 ^ exponent ≤ b.value) (lt : b.value < (low + 1 : ℕ) * 10 ^ exponent) :
    (b.interval.nearer { coefficient := low, exponent }
      { coefficient := low + 1, exponent }).exponent = exponent ∧
      IsClosest b.interval.Holds b.value
        (b.interval.nearer { coefficient := low, exponent }
          { coefficient := low + 1, exponent }) := by
  -- Whatever lies further out is at least as far away as the two.
  have above {n : ℕ} (greater : low < n) :
      |b.value - (low + 1 : ℕ) * 10 ^ exponent| ≤ |b.value - n * 10 ^ exponent| := by
    rcases Nat.eq_or_lt_of_le greater with rfl | further
    · exact le_rfl
    · exact (nearer_above (by positivity) lt.le further).le
  have below {n : ℕ} (less : n < low + 1) :
      |b.value - low * 10 ^ exponent| ≤ |b.value - n * 10 ^ exponent| := by
    rcases Nat.eq_or_lt_of_le (Nat.le_of_lt_succ less) with rfl | further
    · exact le_rfl
    · exact (nearer_below (by positivity) le further).le
  unfold Interval.nearer
  simp only [Interval.distance_lt_iff b.interval_denominator_pos, middle_interval]
  -- The one below, the one above, or a tie.
  split
  case isTrue lower =>
    exact ⟨rfl, isClosest_below lowerHolds le fun n greater _ =>
      .inl (lower.trans_le (above greater))⟩
  case isFalse notLower =>
    split
    case isTrue upper =>
      exact ⟨rfl, isClosest_above upperHolds lt.le fun n less _ =>
        .inl (upper.trans_le (below less))⟩
    case isFalse notUpper =>
      -- In a tie, one of the two neighbours is even.
      have tie := le_antisymm (not_lt.mp notUpper) (not_lt.mp notLower)
      split
      case isTrue even =>
        refine ⟨rfl, isClosest_below lowerHolds le fun n greater _ => ?_⟩
        rcases (tie.le.trans (above greater)).lt_or_eq with nearer | same
        · exact .inl nearer
        · exact .inr ⟨same, beq_iff_eq.mp even⟩
      case isFalse odd =>
        refine ⟨rfl, isClosest_above upperHolds lt.le fun n less _ => ?_⟩
        rcases (tie.ge.trans (below less)).lt_or_eq with nearer | same
        · exact .inl nearer
        · have : ¬low % 2 = 0 := mt beq_iff_eq.mpr odd
          exact .inr ⟨same, by omega⟩

/-- What is found on a grid is the closest multiple. -/
theorem isClosest_onGrid? {d : Scaled} (found : b.interval.onGrid? exponent = some d) :
    d.exponent = exponent ∧ IsClosest b.interval.Holds b.value d := by
  have holds := Interval.contains_iff b.interval_denominator_pos
  obtain ⟨le, lt⟩ := b.floorAt_bounds exponent
  have same : b.interval.floorAt exponent =
      ⟨(b.interval.floorAt exponent).coefficient, exponent⟩ := rfl
  rw [Interval.onGrid?, same] at found
  generalize (b.interval.floorAt exponent).coefficient = low at le lt found
  dsimp only at found
  -- Of the two multiples around the number, none, one or both are in its interval.
  cases onLower : b.interval.contains ⟨low, exponent⟩ with
  | true =>
    have lower : b.interval.Holds (low * 10 ^ exponent) := (holds _).mp onLower
    cases onUpper : b.interval.contains ⟨low + 1, exponent⟩ with
    | true =>
      rw [onLower, onUpper] at found
      obtain rfl := Option.some.inj found
      exact isClosest_nearer lower ((holds _).mp onUpper) le lt
    | false =>
      rw [onLower, onUpper] at found
      obtain rfl := Option.some.inj found
      -- If one further up would read back, the first one above the number would too.
      refine ⟨rfl, isClosest_below lower le fun n greater others => ?_⟩
      have upper : b.interval.Holds ((low + 1 : ℕ) * 10 ^ exponent) :=
        lower.between others (by gcongr; omega) (by gcongr; omega)
      rw [(holds ⟨low + 1, exponent⟩).mpr upper] at onUpper
      cases onUpper
  | false =>
    cases onUpper : b.interval.contains ⟨low + 1, exponent⟩ with
    | true =>
      rw [onLower, onUpper] at found
      obtain rfl := Option.some.inj found
      have upper : b.interval.Holds ((low + 1 : ℕ) * 10 ^ exponent) := (holds _).mp onUpper
      refine ⟨rfl, isClosest_above upper lt.le fun n less others => ?_⟩
      have lower : b.interval.Holds (low * 10 ^ exponent) :=
        others.between upper (by gcongr; omega) (by gcongr; omega)
      rw [(holds ⟨low, exponent⟩).mpr lower] at onLower
      cases onLower
    | false =>
      rw [onLower, onUpper] at found
      cases found

/-- Where nothing is found on a grid, the two multiples around the number lie
outside of its interval. -/
theorem not_holds_of_onGrid?_eq_none (missing : b.interval.onGrid? exponent = none) :
    ¬b.interval.Holds ((b.interval.floorAt exponent).coefficient * 10 ^ exponent) ∧
      ¬b.interval.Holds (((b.interval.floorAt exponent).coefficient + 1 : ℕ) * 10 ^ exponent) := by
  have holds := Interval.contains_iff b.interval_denominator_pos
  have same : b.interval.floorAt exponent =
      ⟨(b.interval.floorAt exponent).coefficient, exponent⟩ := rfl
  rw [Interval.onGrid?, same] at missing
  generalize (b.interval.floorAt exponent).coefficient = low at missing ⊢
  dsimp only at missing
  -- Either multiple would have been found if the interval held it.
  constructor
  · intro lower
    rw [(holds ⟨low, exponent⟩).mpr lower] at missing
    cases onUpper : b.interval.contains ⟨low + 1, exponent⟩ <;> simp [onUpper] at missing
  · intro upper
    rw [(holds ⟨low + 1, exponent⟩).mpr upper] at missing
    cases onLower : b.interval.contains ⟨low, exponent⟩ <;> simp [onLower] at missing

/-- Where nothing is found on a grid, there is nothing. -/
theorem not_holds_multiple (positive : 0 < b.significand)
    (missing : b.interval.onGrid? exponent = none) (n : ℕ) :
    ¬b.interval.Holds (n * 10 ^ exponent) := by
  intro holds
  obtain ⟨noLower, noUpper⟩ := not_holds_of_onGrid?_eq_none missing
  obtain ⟨le, lt⟩ := b.floorAt_bounds exponent
  have self := Interval.holds_of_between (lower_lt_value positive) value_lt_upper
  -- Between any multiple in the interval and the number is one of the two that were tried.
  rcases Nat.lt_or_ge (b.interval.floorAt exponent).coefficient n with above | below
  · exact noUpper (self.between holds lt.le (by gcongr; omega))
  · exact noLower (holds.between self (by gcongr) le)

namespace Canonical

variable (canonical : b.Canonical)

include canonical

/-- A number has the leading digit that is computed for it. -/
theorem value_bounds :
    (10 : ℚ) ^ b.interval.magnitude ≤ b.value ∧ b.value < 10 ^ (b.interval.magnitude + 1) := by
  have filled : 0 < b.interval.mid :=
    Nat.mul_pos (Nat.mul_pos (by decide) canonical.positive) (Nat.pow_pos (by decide))
  rw [← middle_interval]
  exact Interval.magnitude_bounds b.interval_denominator_pos filled

/-- Seventeen digits are enough. -/
theorem onGrid?_ne_none : b.interval.onGrid? (b.interval.magnitude - 16) ≠ none := by
  intro missing
  have scale : (0 : ℚ) < 2 ^ b.exponent := by positivity
  obtain ⟨noLower, noUpper⟩ := not_holds_of_onGrid?_eq_none missing
  obtain ⟨le, lt⟩ := b.floorAt_bounds (b.interval.magnitude - 16)
  -- The whole interval would lie between two neighbouring multiples.
  have below : ¬b.interval.lower < _ := fun inside =>
    noLower (Interval.holds_of_between inside (le.trans_lt value_lt_upper))
  have above : ¬_ < b.interval.upper := fun inside =>
    noUpper (Interval.holds_of_between ((lower_lt_value canonical.positive).trans lt) inside)
  rw [not_lt, canonical.lower_eq] at below
  rw [not_lt, upper_eq, Nat.cast_add_one] at above
  have wide : (b.gapBelow + 2 ^ b.exponent) / 2 ≤
      (10 : ℚ) ^ (b.interval.magnitude - 16) := by linarith
  -- But the number is at least sixteen powers of ten greater than their distance.
  have leading := canonical.value_bounds.1
  have power : (10 : ℚ) ^ b.interval.magnitude = 10 ^ (b.interval.magnitude - 16) * 10 ^ 16 := by
    rw [← zpow_natCast, ← zpow_add₀ (by norm_num)]
    congr 1
    push_cast
    ring
  rw [power, value] at leading
  cases narrow : b.narrowBelow with
  | true =>
    rw [gapBelow, if_pos narrow] at wide
    rw [(canonical.narrow.mp narrow).1] at leading
    push_cast at leading
    nlinarith
  | false =>
    have bounded : (b.significand : ℚ) ≤ 2 ^ 53 := by exact_mod_cast canonical.bounded.le
    rw [gapBelow, narrow, if_neg (by decide)] at wide
    nlinarith

/-- A power of ten in the interval of a number is not much greater than the number. -/
theorem lt_value_of_le_upper {power : Int} (le : (10 : ℚ) ^ power ≤ b.interval.upper) :
    (19 / 20 : ℚ) * 10 ^ power < b.value := by
  by_contra small
  have least : (1 : ℚ) ≤ b.significand := Nat.one_le_cast.mpr canonical.positive
  rw [not_lt, value] at small
  rw [upper_interval] at le
  -- Only numbers with few bits have such a wide interval, and these have the lowest exponent.
  have scale : (0 : ℚ) < 2 ^ b.exponent := by positivity
  have few : (b.significand : ℚ) ≤ 19 / 2 := by nlinarith
  have lowest : b.exponent = -(1074 : ℕ) := by
    refine canonical.filled ?_
    rw [← Nat.cast_lt (α := ℚ)]
    push_cast
    linarith
  rw [lowest, zpow_neg, zpow_natCast, ← div_eq_mul_inv, le_div_iff₀ (by positivity)] at le
  rw [lowest, zpow_neg, zpow_natCast, ← div_eq_mul_inv, div_le_iff₀ (by positivity)] at small
  -- The power of ten is compared with the only one that is near.
  have shifted : (10 : ℚ) ^ power * 10 ^ 323 = 10 ^ (power + 323) := by
    rw [← zpow_natCast, ← zpow_add₀ (by norm_num)]
    rfl
  have above := mul_lt_mul_of_pos_left two_pow_bounds.1 (show (0 : ℚ) < 10 ^ power by positivity)
  have below := mul_lt_mul_of_pos_left two_pow_bounds.2 (show (0 : ℚ) < 10 ^ power by positivity)
  generalize (2 : ℚ) ^ 1074 = unit at le small above below
  generalize (10 : ℚ) ^ 323 = tens at shifted above below
  rcases lt_trichotomy (power + 323) 0 with lower | same | higher
  -- A lower power is too small, a higher one too great, and the near one is below the number.
  · have tenth : (10 : ℚ) ^ (power + 323) ≤ 10 ^ (-1 : ℤ) :=
      zpow_le_zpow_right₀ (by norm_num) (by omega)
    norm_num at tenth
    linarith
  · rw [same, zpow_zero] at shifted
    have one : b.significand = 1 := by
      have : (b.significand : ℚ) < (2 : ℕ) := by
        push_cast
        linarith
      have := Nat.cast_lt.mp this
      have := canonical.positive
      omega
    rw [one, Nat.cast_one] at le
    linarith
  · have ten : (10 : ℚ) ^ (1 : ℤ) ≤ 10 ^ (power + 323) :=
      zpow_le_zpow_right₀ (by norm_num) (by omega)
    rw [zpow_one] at ten
    linarith

/-- What lies in the interval of a number is not zero. -/
theorem pos_of_holds {n : ℕ} (holds : b.interval.Holds (n * 10 ^ exponent)) : 0 < n := by
  have above := (lower_pos canonical.positive).trans_le holds.above
  rw [Nat.pos_iff_ne_zero]
  rintro rfl
  simp at above

/-- No power of ten that is ten times too great has a multiple in the interval. -/
theorem not_holds_far (n : ℕ) : ¬b.interval.Holds (n * 10 ^ (b.interval.magnitude + 1 + 1)) := by
  intro holds
  have some : (1 : ℚ) ≤ n := Nat.one_le_cast.mpr (canonical.pos_of_holds holds)
  have scale : (0 : ℚ) < 10 ^ (b.interval.magnitude + 1) := by positivity
  have near := canonical.lt_value_of_le_upper
    ((le_mul_of_one_le_left (by positivity) some).trans holds.below)
  have below := canonical.value_bounds.2
  rw [zpow_add_one₀ (by norm_num) (b.interval.magnitude + 1)] at near
  linarith

/-- If a multiple of the next power of ten lies in the interval, the power itself does. -/
theorem holds_next {n : ℕ} (holds : b.interval.Holds (n * 10 ^ (b.interval.magnitude + 1))) :
    b.interval.Holds (10 ^ (b.interval.magnitude + 1)) := by
  have self := Interval.holds_of_between (lower_lt_value canonical.positive) value_lt_upper
  have some : (1 : ℚ) ≤ n := Nat.one_le_cast.mpr (canonical.pos_of_holds holds)
  exact self.between holds canonical.value_bounds.2.le (le_mul_of_one_le_left (by positivity) some)

/-- If the next power of ten lies in the interval, it is what is found on the grid
of the leading digit. -/
theorem coefficient_eq_ten {d : Scaled} (closest : IsClosest b.interval.Holds b.value d)
    (leading : d.exponent = b.interval.magnitude)
    (holds : b.interval.Holds (10 ^ (b.interval.magnitude + 1))) : d.coefficient = 10 := by
  have scale : (0 : ℚ) < 10 ^ b.interval.magnitude := by positivity
  have next : (10 : ℚ) ^ (b.interval.magnitude + 1) = (10 : ℕ) * 10 ^ b.interval.magnitude := by
    rw [zpow_add_one₀ (by norm_num), mul_comm, Nat.cast_ofNat]
  have near := canonical.lt_value_of_le_upper holds.below
  have below := canonical.value_bounds.2
  rw [next] at holds near below
  by_contra differ
  have beaten := closest.nearest 10 (by rwa [leading]) (Ne.symm differ)
  have atMost : |b.value - d.value| ≤ |b.value - (10 : ℕ) * 10 ^ b.interval.magnitude| := by
    rw [leading] at beaten
    rcases beaten with less | ⟨same, _⟩
    · exact less.le
    · exact same.le
  rw [Scaled.value, leading] at atMost
  -- The number is nearer to ten than to anything on either side.
  refine absurd atMost (not_le.mpr ?_)
  rcases Nat.lt_or_gt_of_ne differ with less | greater
  · have nine : (d.coefficient : ℚ) ≤ 9 := by exact_mod_cast Nat.le_of_lt_succ less
    rw [abs_sub_lt_iff_of_gt (by gcongr)]
    push_cast at near ⊢
    nlinarith
  · exact nearer_above scale below.le greater

end Canonical

end Binary

/-- What is first found along a range is what is found in it. -/
theorem exists_first {α : Type} (search : ℕ → Option α) {count last : ℕ} (inside : last < count)
    (found : search last ≠ none) :
    ∃ n a, search n = some a ∧ (∀ m < n, search m = none) ∧
      (List.range count).findSome? search = some a := by
  cases all : (List.range count).findSome? search with
  | none => exact absurd (List.findSome?_eq_none_iff.mp all last (List.mem_range.mpr inside)) found
  | some a =>
    -- What stands before the place of the find is the range up to it.
    obtain ⟨before, n, after, split, taken, missing⟩ := List.findSome?_eq_some_iff.mp all
    rw [List.range_eq_range', List.range'_eq_append_iff] at split
    obtain ⟨length, _, rfl, rest⟩ := split
    have same : n = length := by
      have head := congrArg List.head? rest
      rw [List.head?_cons, List.head?_range'] at head
      split at head
      case isTrue => cases head
      case isFalse => simpa using head
    refine ⟨n, a, taken, fun m less => missing m ?_, rfl⟩
    rw [List.mem_range'_1]
    omega

/-- The decimal that is found for a number is the shortest one, with zeros behind it or without. -/
theorem Binary.Canonical.isShortest_shortest {b : Binary} (canonical : b.Canonical) :
    ∃ (d : Scaled) (zeros : ℕ), IsShortest b.interval.Holds b.value d ∧
      b.shortest =
        { coefficient := d.coefficient * 10 ^ zeros, exponent := d.exponent - zeros } := by
  obtain ⟨n, found, onGrid, missing, shortest⟩ := exists_first
    (fun n : ℕ => b.interval.onGrid? (b.interval.magnitude - n)) (by decide : 16 < maxDigits)
      canonical.onGrid?_ne_none
  obtain ⟨grid, closest⟩ := isClosest_onGrid? onGrid
  have same : b.shortest = found := by
    rw [Binary.shortest, shortest]
    rfl
  -- Unless the next power of ten is meant, the decimal is what was found, and no
  -- coarser grid has one.
  have asFound (coarsest : ∀ m : ℕ, ¬b.interval.Holds (m * 10 ^ (found.exponent + 1))) :
      ∃ (d : Scaled) (zeros : ℕ), IsShortest b.interval.Holds b.value d ∧
        b.shortest =
          { coefficient := d.coefficient * 10 ^ zeros, exponent := d.exponent - zeros } :=
    ⟨found, 0, ⟨closest, coarsest⟩, by simp [same]⟩
  cases n with
  | succ n =>
    apply asFound
    have coarser : found.exponent + 1 = b.interval.magnitude - n := by
      rw [grid]
      push_cast
      ring
    rw [coarser]
    exact not_holds_multiple canonical.positive (missing n n.lt_succ_self)
  | zero =>
    rw [Nat.cast_zero, sub_zero] at grid
    by_cases next : b.interval.Holds (10 ^ (b.interval.magnitude + 1))
    · have ten := canonical.coefficient_eq_ten closest grid next
      refine ⟨{ coefficient := 1, exponent := b.interval.magnitude + 1 }, 1,
        ⟨⟨?_, ?_⟩, canonical.not_holds_far⟩, ?_⟩
      · simpa [Scaled.value] using next
      · -- Further multiples lie further above the number.
        intro m holds differ
        have some := canonical.pos_of_holds holds
        have above : b.value ≤ (1 : ℕ) * 10 ^ (b.interval.magnitude + 1) := by
          simpa using canonical.value_bounds.2.le
        have greater : 1 < m := Nat.lt_of_le_of_ne some (Ne.symm differ)
        exact .inl (nearer_above (by positivity) above greater)
      · rw [same, ← grid]
        cases found
        simpa using ten
    · apply asFound
      intro m holds
      rw [grid] at holds
      exact next (canonical.holds_next holds)

end LoxLang.Decimal
