import LoxLang.Proofs.Decimal.Rounding

/-!
Rounding to the nearest binary number.

The rounding interval of a number, which is computed from its significand and its exponent,
holds just what is rounded to the number.
-/

namespace LoxLang.Decimal

/--
The sizes of double precision numbers, and of those that would come behind the greatest one.

What is rounded to one of the latter is too large for a number.
-/
def Representable (size : ℚ) : Prop :=
  ∃ (significand : ℕ) (exponent : ℤ),
    significand < 2 ^ 53 ∧ -1074 ≤ exponent ∧ size = significand * 2 ^ exponent

/-- Rounding: no other size is nearer, and where one is as near, the even significand is taken. -/
def RoundsTo (significand : ℕ) (exponent : ℤ) (v : ℚ) : Prop :=
  ∀ size, Representable size → size ≠ significand * 2 ^ exponent →
    |v - significand * 2 ^ exponent| < |v - size| ∨
      |v - significand * 2 ^ exponent| = |v - size| ∧ significand % 2 = 0

/-- Every number is rounded to itself. -/
theorem roundsTo_self (significand : ℕ) (exponent : ℤ) :
    RoundsTo significand exponent (significand * 2 ^ exponent) := by
  intro size _ other
  left
  rw [sub_self, abs_zero, abs_pos]
  exact sub_ne_zero.mpr other.symm

section

variable {v near far : ℚ}

/-- The lower of two sizes is the nearer one below their middle. -/
theorem abs_sub_lt_iff_of_lt (less : near < far) :
    |v - near| < |v - far| ↔ v < (near + far) / 2 := by
  rcases abs_cases (v - near) with ⟨first, _⟩ | ⟨first, _⟩
  · rcases abs_cases (v - far) with ⟨second, _⟩ | ⟨second, _⟩
    · rw [first, second]
      constructor <;> intro <;> linarith
    · rw [first, second]
      constructor <;> intro <;> linarith
  · rcases abs_cases (v - far) with ⟨second, _⟩ | ⟨second, _⟩
    · rw [first, second]
      constructor <;> intro <;> linarith
    · rw [first, second]
      constructor <;> intro <;> linarith

/-- Two sizes are equally near in their middle only. -/
theorem abs_sub_eq_iff_of_ne (differ : near ≠ far) :
    |v - near| = |v - far| ↔ v = (near + far) / 2 := by
  rw [abs_eq_abs]
  constructor
  · rintro (same | mirrored)
    · exact absurd (by linarith) differ
    · linarith
  · intro middle
    right
    linarith

/-- The higher of two sizes is the nearer one above their middle. -/
theorem abs_sub_lt_iff_of_gt (greater : far < near) :
    |v - near| < |v - far| ↔ (near + far) / 2 < v := by
  -- Mirrored at zero, it is the lower one.
  have mirrored := abs_sub_lt_iff_of_lt (v := -v) (neg_lt_neg greater)
  rw [neg_sub_neg, neg_sub_neg, abs_sub_comm near, abs_sub_comm far] at mirrored
  rw [mirrored]
  constructor <;> intro <;> linarith

end

namespace Binary

/-- Whether a binary number has the form that double precision numbers are stored in. -/
structure Canonical (b : Binary) : Prop where
  positive : 0 < b.significand
  bounded : b.significand < 2 ^ 53
  lowest : -1074 ≤ b.exponent
  /-- Only numbers of the lowest exponent are without the leading bit. -/
  filled : b.significand < 2 ^ 52 → b.exponent = -1074
  narrow : b.narrowBelow = true ↔ b.significand = 2 ^ 52 ∧ -1074 < b.exponent

/-- How far the next smaller number is away. -/
def gapBelow (b : Binary) : ℚ :=
  if b.narrowBelow then 2 ^ b.exponent / 2 else 2 ^ b.exponent

/-- The next smaller number is at most as far away as the next greater one. -/
theorem gapBelow_le (b : Binary) : b.gapBelow ≤ 2 ^ b.exponent := by
  have scale : (0 : ℚ) < 2 ^ b.exponent := by positivity
  unfold gapBelow
  split
  · linarith
  · exact le_rfl

/-- The upper end of an interval is half a gap above the number. -/
theorem upper_eq (b : Binary) : b.interval.upper = b.value + 2 ^ b.exponent / 2 := by
  rw [upper_interval, value]
  ring

/-- What has a lower exponent is smaller than what has a leading bit. -/
theorem le_of_finer {count : ℕ} (bounded : count < 2 ^ 53) {finer exponent : ℤ}
    (less : finer < exponent) :
    (count * 2 ^ finer : ℚ) ≤ (2 ^ 52 - 1 / 2) * 2 ^ exponent := by
  have atMost : (count : ℚ) ≤ 2 ^ 53 - 1 := by
    have next : ((count + 1 : ℕ) : ℚ) ≤ (2 ^ 53 : ℕ) := Nat.cast_le.mpr bounded
    push_cast at next
    linarith
  -- A lower exponent halves the unit at least.
  have power : (2 : ℚ) ^ finer ≤ 2 ^ exponent / 2 := by
    rw [div_eq_mul_inv, ← zpow_sub_one₀ (by norm_num)]
    exact zpow_le_zpow_right₀ (by norm_num) (by omega)
  calc (count * 2 ^ finer : ℚ)
    _ ≤ (2 ^ 53 - 1) * (2 ^ exponent / 2) := by gcongr
    _ = (2 ^ 52 - 1 / 2) * 2 ^ exponent := by ring

namespace Canonical

variable {b : Binary} (canonical : b.Canonical)

include canonical

/-- The lower end of an interval is half a gap below the number. -/
theorem lower_eq : b.interval.lower = b.value - b.gapBelow / 2 := by
  rw [lower_interval canonical.positive, value, gapBelow]
  split
  · ring
  · ring

/-- A number with anything below its exponent has the leading bit. -/
theorem le_significand {exponent : ℤ} (lowest : -1074 ≤ exponent) (less : exponent < b.exponent) :
    2 ^ 52 ≤ b.significand := by
  by_contra small
  have := canonical.filled (by omega)
  omega

/-- Nothing lies between a number and the end of the gap above it. -/
theorem next_le {size : ℚ} (representable : Representable size) (above : b.value < size) :
    b.value + 2 ^ b.exponent ≤ size := by
  have scale : (0 : ℚ) < 2 ^ b.exponent := by positivity
  obtain ⟨count, exponent, bounded, lowest, rfl⟩ := representable
  rcases le_or_gt b.exponent exponent with coarser | finer
  · -- Both are multiples of one power of two.
    obtain ⟨more, same⟩ := exists_multiple two_pos count coarser
    rw [Nat.cast_ofNat] at same
    rw [same, value, mul_lt_mul_iff_left₀ scale, Nat.cast_lt] at above
    have next : (b.significand + 1 : ℚ) ≤ more := by exact_mod_cast above
    rw [same, value]
    nlinarith
  · -- What is finer is smaller.
    have most := le_of_finer bounded finer
    have filled : (2 ^ 52 : ℚ) ≤ b.significand := by
      exact_mod_cast canonical.le_significand lowest finer
    rw [value] at above
    nlinarith

/-- Nothing lies between a number and the end of the gap below it. -/
theorem le_previous {size : ℚ} (representable : Representable size) (below : size < b.value) :
    size ≤ b.value - b.gapBelow := by
  have scale : (0 : ℚ) < 2 ^ b.exponent := by positivity
  have gap := b.gapBelow_le
  obtain ⟨count, exponent, bounded, lowest, rfl⟩ := representable
  rcases le_or_gt b.exponent exponent with coarser | finer
  · obtain ⟨more, same⟩ := exists_multiple two_pos count coarser
    rw [Nat.cast_ofNat] at same
    rw [same, value, mul_lt_mul_iff_left₀ scale, Nat.cast_lt] at below
    have next : (more + 1 : ℚ) ≤ b.significand := by exact_mod_cast below
    rw [same, value]
    nlinarith
  · -- The gap is the narrow one only at the least significand with the leading bit.
    have most := le_of_finer bounded finer
    have filled := canonical.le_significand lowest finer
    rcases filled.eq_or_lt with least | more
    · have narrow : b.narrowBelow = true := canonical.narrow.mpr ⟨least.symm, by omega⟩
      rw [value, gapBelow, if_pos narrow, ← least]
      push_cast
      linarith
    · have more : (2 ^ 52 + 1 : ℚ) ≤ b.significand := by exact_mod_cast more
      rw [value]
      nlinarith

/-- At the end of the gap above a number is the next one. -/
theorem representable_next : Representable (b.value + 2 ^ b.exponent) := by
  rcases Nat.lt_or_ge (b.significand + 1) (2 ^ 53) with inner | last
  · refine ⟨b.significand + 1, b.exponent, inner, canonical.lowest, ?_⟩
    rw [value]
    push_cast
    ring
  · -- The last significand is followed by the first one of the next exponent.
    have same : b.significand = 2 ^ 53 - 1 := by
      have := canonical.bounded
      omega
    have lowest := canonical.lowest
    refine ⟨2 ^ 52, b.exponent + 1, by norm_num, by omega, ?_⟩
    rw [value, same, zpow_add_one₀ (by norm_num)]
    norm_num
    ring

/-- At the end of the gap below a number is the previous one. -/
theorem representable_previous : Representable (b.value - b.gapBelow) := by
  cases narrow : b.narrowBelow with
  | true =>
    -- The first significand of an exponent is preceded by the last one of the exponent before.
    obtain ⟨least, higher⟩ := canonical.narrow.mp narrow
    refine ⟨2 ^ 53 - 1, b.exponent - 1, by norm_num, by omega, ?_⟩
    rw [value, gapBelow, if_pos narrow, least, zpow_sub_one₀ (by norm_num)]
    norm_num
    ring
  | false =>
    have bounded := canonical.bounded
    refine ⟨b.significand - 1, b.exponent, by omega, canonical.lowest, ?_⟩
    rw [value, gapBelow, narrow, Nat.cast_sub canonical.positive, if_neg (by decide)]
    push_cast
    ring

/-- What lies in the rounding interval of a number is rounded to it. -/
theorem roundsTo_of_holds {v : ℚ} (holds : b.interval.Holds v) :
    RoundsTo b.significand b.exponent v := by
  intro size representable other
  change size ≠ b.value at other
  change |v - b.value| < _ ∨ |v - b.value| = _ ∧ _
  -- The middle between two numbers is outside of the interval or at its end, which
  -- only an even one has.
  have even (ends : ¬(b.interval.lower < v ∧ v < b.interval.upper)) : b.significand % 2 = 0 := by
    have closed : b.interval.closed = true := by
      by_contra opened
      exact ends (holds.inside (by simpa using opened))
    exact beq_iff_eq.mp closed
  rcases lt_or_gt_of_ne other with less | greater
  · have far := canonical.le_previous representable less
    have above := holds.above
    rw [canonical.lower_eq] at above even
    rw [abs_sub_lt_iff_of_gt less, abs_sub_eq_iff_of_ne other.symm]
    rcases lt_or_ge ((b.value + size) / 2) v with nearer | tie
    · exact .inl nearer
    · exact .inr ⟨by linarith, even fun inside => by linarith [inside.1]⟩
  · have far := canonical.next_le representable greater
    have below := holds.below
    rw [upper_eq] at below even
    rw [abs_sub_lt_iff_of_lt greater, abs_sub_eq_iff_of_ne other.symm]
    rcases lt_or_ge v ((b.value + size) / 2) with nearer | tie
    · exact .inl nearer
    · exact .inr ⟨by linarith, even fun inside => by linarith [inside.2]⟩

/-- What is rounded to a number lies in its rounding interval. -/
theorem holds_of_roundsTo {v : ℚ} (rounds : RoundsTo b.significand b.exponent v) :
    b.interval.Holds v := by
  have scale : (0 : ℚ) < 2 ^ b.exponent := by positivity
  have gap : 0 < b.gapBelow := by
    unfold gapBelow
    split
    · linarith
    · exact scale
  -- Its neighbours are not nearer, and as near only if its significand is even.
  have below := rounds _ canonical.representable_next (by change _ ≠ b.value; linarith)
  have above := rounds _ canonical.representable_previous (by change _ ≠ b.value; linarith)
  change |v - b.value| < _ ∨ |v - b.value| = _ ∧ _ at below above
  rw [abs_sub_lt_iff_of_lt (by linarith), abs_sub_eq_iff_of_ne (by linarith)] at below
  rw [abs_sub_lt_iff_of_gt (by linarith), abs_sub_eq_iff_of_ne (by linarith)] at above
  have closed (even : b.significand % 2 = 0) : b.interval.closed = true := beq_iff_eq.mpr even
  refine ⟨?_, ?_, fun opened => ⟨?_, ?_⟩⟩
  · rw [canonical.lower_eq]
    rcases above with inside | ⟨ends, _⟩ <;> linarith
  · rw [upper_eq]
    rcases below with inside | ⟨ends, _⟩ <;> linarith
  · rw [canonical.lower_eq]
    rcases above with inside | ⟨_, even⟩
    · linarith
    · rw [closed even] at opened
      cases opened
  · rw [upper_eq]
    rcases below with inside | ⟨_, even⟩
    · linarith
    · rw [closed even] at opened
      cases opened

/-- The rounding interval of a number holds just what is rounded to it. -/
theorem holds_eq_roundsTo : b.interval.Holds = RoundsTo b.significand b.exponent := by
  funext v
  exact propext ⟨canonical.roundsTo_of_holds, canonical.holds_of_roundsTo⟩

end Canonical

end Binary

end LoxLang.Decimal
