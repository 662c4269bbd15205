import LoxLang.Proofs.Decimal.Reading
import LoxLang.Proofs.Value.Equality

/-!
What a program shows of a value tells it from all others of its type.

The rounding intervals of double precision numbers lie side by side, and the text of a number
stands for a decimal in its own interval, so that no two numbers have the same text.
-/

namespace LoxLang

namespace Number

open Decimal Float.Model Float.Model.UnpackedFloat

/-- The place of a number among those that differ in size only: its bits but for the sign. -/
def rank (x : Float) : Nat :=
  x.toBits.toNat % 2 ^ 63

/-- The number at a place, split into significand and exponent. -/
def sized (rank : Nat) : Binary :=
  if rank / 2 ^ 52 =
    0 then { significand := rank % 2 ^ 52, exponent := -1074, narrowBelow := false }
  else
    { significand := rank % 2 ^ 52 + 2 ^ 52
      exponent := (rank / 2 ^ 52 : ℕ) - 1075
      narrowBelow := rank % 2 ^ 52 = 0 && 1 < rank / 2 ^ 52 }

/-- The size of a number is found from its place. -/
theorem magnitude_eq_sized (x : Float) : magnitude x = sized (rank x) := by
  have fraction : rank x % 2 ^ 52 = x.toBits.toNat % Nat.pow 2 52 := by
    rw [rank]
    change _ = x.toBits.toNat % 2 ^ 52
    omega
  have biased : rank x / 2 ^ 52 = x.toBits.toNat / Nat.pow 2 52 % Nat.pow 2 11 := by
    rw [rank]
    change _ = x.toBits.toNat / 2 ^ 52 % 2 ^ 11
    omega
  rw [magnitude, sized, fraction, biased]
  rfl

/-- A number is determined by its sign and its place. -/
theorem eq_of_rank {x y : Float} (sign : isNegative x = isNegative y) (same : rank x = rank y) :
    x = y := by
  have bound : x.toBits.toNat < 2 ^ 64 := x.toBits.toNat_lt
  have otherBound : y.toBits.toNat < 2 ^ 64 := y.toBits.toNat_lt
  have power : Nat.pow 2 63 = 2 ^ 63 := rfl
  simp only [isNegative, decide_eq_decide, power] at sign
  simp only [rank] at same
  apply eq_of_toBits
  apply UInt64.toNat_inj.mp
  omega

/-- Only the zeros are at the first place. -/
theorem rank_pos {x : Float} (nonzero : (x == 0.0) = false) : 0 < rank x := by
  rw [Nat.pos_iff_ne_zero]
  intro first
  have zero : rank 0.0 = 0 := by decide
  have negativeZero : rank (-0.0) = 0 := by decide
  -- With its sign known, a number is given by its place.
  cases sign : isNegative x with
  | false =>
    obtain rfl : x = 0.0 := eq_of_rank (sign.trans (by decide)) (first.trans zero.symm)
    exact absurd nonzero (by decide)
  | true =>
    obtain rfl : x = -0.0 := eq_of_rank (sign.trans (by decide)) (first.trans negativeZero.symm)
    exact absurd nonzero (by decide)

section

variable {rank : Nat}

/-- Behind the first place there are no zeros. -/
theorem significand_sized_pos (positive : 0 < rank) : 0 < (sized rank).significand := by
  unfold sized
  split
  · dsimp only
    omega
  · dsimp only
    omega

/-- The interval of a number is closed if its place is even. -/
theorem closed_sized : (sized rank).interval.closed = true ↔ rank % 2 = 0 := by
  have parity : (sized rank).significand % 2 = rank % 2 := by
    unfold sized
    split
    · dsimp only
      omega
    · dsimp only
      omega
  change ((sized rank).significand % 2 == 0) = true ↔ _
  rw [parity, beq_iff_eq]

/-- The interval of a number ends where that of the next one begins. -/
theorem upper_sized : (sized rank).interval.upper = (sized (rank + 1)).interval.lower := by
  rw [Binary.upper_interval, Binary.lower_interval (significand_sized_pos (Nat.succ_pos rank))]
  by_cases inner : rank % 2 ^ 52 + 1 < 2 ^ 52
  · -- The next number has the same exponent.
    have fraction : (rank + 1) % 2 ^ 52 = rank % 2 ^ 52 + 1 := by omega
    have biased : (rank + 1) / 2 ^ 52 = rank / 2 ^ 52 := by omega
    rw [sized, sized, fraction, biased]
    split
    · simp only [Bool.false_eq_true, if_false]
      congr 1
      push_cast
      ring
    · simp only [Nat.add_one_ne_zero, decide_false, Bool.false_and, Bool.false_eq_true, if_false]
      push_cast
      ring
  · -- The next number has a higher exponent, unless this one has the lowest, which is there without
    -- and with a leading bit.
    have last : rank % 2 ^ 52 = 2 ^ 52 - 1 := by omega
    have fraction : (rank + 1) % 2 ^ 52 = 0 := by omega
    have biased : (rank + 1) / 2 ^ 52 = rank / 2 ^ 52 + 1 := by omega
    rw [sized, sized, last, fraction, biased, if_neg (Nat.succ_ne_zero _)]
    split
    case isTrue lowest =>
      rw [lowest]
      norm_num
    case isFalse higher =>
      have narrow : 1 < rank / 2 ^ 52 + 1 := by omega
      have double : (2 : ℚ) ^ (((rank / 2 ^ 52 + 1 : ℕ) : ℤ) - 1075) =
          2 ^ (((rank / 2 ^ 52 : ℕ) : ℤ) - 1075) * 2 := by
        rw [← zpow_add_one₀ (by norm_num)]
        congr 1
        push_cast
        ring
      simp only [decide_true, narrow, Bool.and_self, if_true, double]
      push_cast
      ring

/-- The further the place, the higher the interval begins. -/
theorem lower_sized_lt {other : Nat} (positive : 0 < rank) (less : rank < other) :
    (sized rank).interval.lower < (sized other).interval.lower := by
  induction other, less using Nat.le_induction with
  | base =>
    rw [← upper_sized]
    exact (Binary.lower_lt_value (significand_sized_pos positive)).trans Binary.value_lt_upper
  | succ other less ih =>
    rw [← upper_sized]
    have filled := significand_sized_pos (Nat.lt_of_lt_of_le positive (Nat.le_of_succ_le less))
    exact ih.trans ((Binary.lower_lt_value filled).trans Binary.value_lt_upper)

/-- No number lies in the intervals of two places. -/
theorem not_holds_of_lt {other : Nat} {v : ℚ} (less : rank < other)
    (first : (sized rank).interval.Holds v) : ¬(sized other).interval.Holds v := by
  intro second
  have below := first.below
  rw [upper_sized] at below
  -- The intervals of neighbours have one end in common, and just one of them holds it.
  by_cases next : other = rank + 1
  · subst next
    have same : v = (sized (rank + 1)).interval.lower := le_antisymm below second.above
    cases closed : (sized rank).interval.closed with
    | false =>
      have strict := (first.inside closed).2
      rw [upper_sized] at strict
      exact absurd same strict.ne
    | true =>
      have even := closed_sized.mp closed
      have opened : (sized (rank + 1)).interval.closed = false := by
        rw [Bool.eq_false_iff]
        intro otherClosed
        have := closed_sized.mp otherClosed
        omega
      exact absurd same (second.inside opened).1.ne'
  · have higher := @lower_sized_lt (rank + 1) other (Nat.succ_pos rank) (by omega)
    exact absurd second.above (not_le.mpr (below.trans_lt higher))

/-- Whatever lies in the intervals of two places is at one place. -/
theorem eq_of_holds {other : Nat} {v : ℚ} (first : (sized rank).interval.Holds v)
    (second : (sized other).interval.Holds v) : rank = other := by
  rcases Nat.lt_trichotomy rank other with less | same | greater
  · exact absurd second (not_holds_of_lt less first)
  · exact same
  · exact absurd first (not_holds_of_lt greater second)

end

/-- What is shown of a number without its sign. -/
def shownSize (x : Float) : List Char :=
  dropWhole (unsignedText x)

/-- A sign in front of a text does not matter for its end. -/
theorem dropWhole_minus (text : List Char) : dropWhole ('-' :: text) = '-' :: dropWhole text := by
  by_cases whole : ∃ before, text.reverse = '0' :: '.' :: before
  · obtain ⟨before, same⟩ := whole
    obtain rfl : text = before.reverse ++ ['.', '0'] := by
      rw [← List.reverse_reverse text, same]
      simp
    rw [← List.cons_append, dropWhole_whole, dropWhole_whole]
  · rw [dropWhole_other (not_exists.mp whole), dropWhole_other]
    -- If the sign were among the last two characters, it would have to be the point.
    intro before same
    rw [List.reverse_cons] at same
    cases ending : text.reverse with
    | nil => simp [ending] at same
    | cons last rest =>
      cases rest with
      | nil => simp [ending] at same
      | cons second rest =>
        rw [ending, List.cons_append, List.cons_append, List.cons.injEq, List.cons.injEq] at same
        exact whole ⟨rest, by rw [ending, same.1, same.2.1]⟩

/-- What is shown of a number: its size with its sign, or that it is undefined. -/
theorem display_eq (x : Float) :
    (display x).toList = if x.isNaN then ['n', 'a', 'n']
      else if isNegative x then '-' :: shownSize x else shownSize x := by
  rw [display, chars, String.toList_ofList, shownSize]
  split_ifs
  · rfl
  · rw [dropWhole_minus]
  · rfl

/-- The size of a number that is neither infinite nor zero stands for a decimal in its
interval; it begins with a digit. -/
theorem holds_shownSize {x : Float} (finite : x.isInf = false) (nonzero : (x == 0.0) = false) :
    (∃ first rest, shownSize x = first :: rest ∧ first.isDigit = true) ∧
      (sized (rank x)).interval.Holds (reading (shownSize x)).value := by
  have positive := significand_sized_pos (rank_pos nonzero)
  have holds := Binary.holds_shortest positive
  obtain ⟨all, value, filled⟩ := ledBy_digits (sized (rank x)).shortest
  have some : (sized (rank x)).shortest.coefficient ≠ 0 := by
    -- The interval begins above zero.
    intro zero
    have above := (Binary.lower_pos positive).trans_le holds.above
    rw [Scaled.value, zero, Nat.cast_zero, zero_mul] at above
    exact absurd above (lt_irrefl 0)
  have written :=
    reading_dropWhole_write layout all (filled some) (sized (rank x)).shortest.digits.2
  have text : shownSize x = dropWhole
      (layout.write (sized (rank x)).shortest.digits.1 (sized (rank x)).shortest.digits.2) := by
    rw [shownSize, unsignedText, finite, nonzero, magnitude_eq_sized]
    rfl
  rw [text, written.2, value]
  exact ⟨written.1, holds⟩

/-- What is shown of the size of a number: a word if it is infinite, a zero, or a
decimal in its interval. -/
theorem shownSize_cases (x : Float) :
    (x.isInf = true ∧ shownSize x = ['i', 'n', 'f']) ∨ ((x == 0.0) = true ∧ shownSize x = ['0']) ∨
      ((∃ first rest, shownSize x = first :: rest ∧ first.isDigit = true) ∧ shownSize x ≠ ['0'] ∧
        (sized (rank x)).interval.Holds (reading (shownSize x)).value) := by
  cases finite : x.isInf with
  | true => exact .inl ⟨rfl, by rw [shownSize, unsignedText, finite]; rfl⟩
  | false =>
    cases nonzero : x == 0.0 with
    | true => exact .inr (.inl ⟨rfl, by rw [shownSize, unsignedText, finite, nonzero]; rfl⟩)
    | false =>
      obtain ⟨begins, holds⟩ := holds_shownSize finite nonzero
      refine .inr (.inr ⟨begins, ?_, holds⟩)
      -- A zero stands for nothing above zero.
      intro zero
      have above :=
        (Binary.lower_pos (significand_sized_pos (rank_pos nonzero))).trans_le holds.above
      have digits : AllDigits ['0'] := AllDigits.zeros 1
      rw [zero, value_reading_whole digits] at above
      exact absurd (Nat.cast_pos.mp above) (by decide)

/-- The size of a number begins with a letter or a digit that no undefined number
and no sign begins with. -/
theorem head_shownSize (x : Float) :
    ∃ first rest, shownSize x = first :: rest ∧ first ≠ 'n' ∧ first ≠ '-' := by
  rcases shownSize_cases x with ⟨_, shown⟩ | ⟨_, shown⟩ | ⟨⟨first, rest, shown, digit⟩, _⟩
  · exact ⟨'i', ['n', 'f'], shown, by decide, by decide⟩
  · exact ⟨'0', [], shown, by decide, by decide⟩
  · refine ⟨first, rest, shown, ?_, ?_⟩
    · rintro rfl
      cases digit
    · rintro rfl
      cases digit

/-- Numbers of one sign that are taken apart into one form but for the sign are the same. -/
theorem eq_of_form {form : Sign → UnpackedFloat} (signed : ∀ sign, signOf? (form sign) = some sign)
    {x y : Float} (is : ∃ sign, x.toModel.unpack = form sign)
    (otherIs : ∃ sign, y.toModel.unpack = form sign) (signs : isNegative x = isNegative y) :
    x = y := by
  -- What shows a sign is defined.
  have defined {z : Float} (is : ∃ sign, z.toModel.unpack = form sign) : z.isNaN = false := by
    obtain ⟨sign, formed⟩ := is
    have shows := signed sign
    change z.toModel.unpack.isNaN = false
    rw [formed]
    cases same : form sign with
    | notANumber =>
      rw [same] at shows
      cases shows
    | infinity | zero | finite => rfl
  have shown := signOf?_eq (defined is) (defined otherIs) signs
  obtain ⟨sign, formed⟩ := is
  obtain ⟨other, otherFormed⟩ := otherIs
  rw [formed, otherFormed, signed, signed, Option.some.injEq] at shown
  apply eq_of_toModel_unpack
  rw [formed, otherFormed, shown]

/-- An infinite number is taken apart into nothing but its sign. -/
theorem unpack_of_isInf {x : Float} (infinite : x.isInf = true) :
    ∃ sign, x.toModel.unpack = .infinity sign := by
  change x.toModel.unpack.isInf = true at infinite
  cases form : x.toModel.unpack with
  | infinity sign => exact ⟨sign, rfl⟩
  | notANumber | zero | finite =>
    rw [form] at infinite
    cases infinite

/-- Numbers of one sign that show the same size are the same. -/
theorem eq_of_shownSize {x y : Float} (signs : isNegative x = isNegative y)
    (same : shownSize x = shownSize y) : x = y := by
  -- A size that begins with a digit is not the word for an infinite one.
  have noWord {z : Float} (begins : ∃ first rest, shownSize z = first :: rest ∧
      first.isDigit = true) :
      shownSize z ≠ ['i', 'n', 'f'] := by
    obtain ⟨first, rest, shown, digit⟩ := begins
    rw [shown]
    rintro ⟨⟩
    cases digit
  rcases shownSize_cases x with ⟨infinite, shown⟩ | ⟨zero, shown⟩ | ⟨begins, nonzero, holds⟩
  · rcases shownSize_cases y with ⟨otherInfinite, _⟩ | ⟨_, otherShown⟩ | ⟨begins, _, _⟩
    · exact eq_of_form (fun _ => rfl) (unpack_of_isInf infinite)
        (unpack_of_isInf otherInfinite) signs
    · simp [shown, otherShown] at same
    · exact absurd (same.symm.trans shown) (noWord begins)
  · rcases shownSize_cases y with ⟨_, otherShown⟩ | ⟨otherZero, _⟩ | ⟨_, nonzero, _⟩
    · simp [shown, otherShown] at same
    · exact eq_of_form (fun _ => rfl) (unpack_of_zero zero) (unpack_of_zero otherZero) signs
    · exact absurd (same.symm.trans shown) nonzero
  · rcases shownSize_cases y with ⟨_, otherShown⟩ | ⟨_, otherShown⟩ | ⟨_, _, otherHolds⟩
    · exact absurd (same.trans otherShown) (noWord begins)
    · exact absurd (same.trans otherShown) nonzero
    · -- One decimal lies in both intervals.
      rw [same] at holds
      exact eq_of_rank signs (eq_of_holds holds otherHolds)

/-- The sign of a defined number shows. -/
theorem isNegative_of_shown {x y : Float}
    (same : (if isNegative x then '-' :: shownSize x else shownSize x) = if isNegative y then
      '-' :: shownSize y else shownSize y) :
    isNegative x = isNegative y ∧ shownSize x = shownSize y := by
  obtain ⟨first, rest, text, _, unsigned⟩ := head_shownSize x
  obtain ⟨otherFirst, otherRest, otherText, _, otherUnsigned⟩ := head_shownSize y
  -- What follows the sign does not begin with one, so the first character tells.
  cases sign : isNegative x with
  | true =>
    cases otherSign : isNegative y with
    | true => simpa [sign, otherSign] using same
    | false =>
      simp only [sign, otherSign, if_true, Bool.false_eq_true, if_false, otherText, List.cons.injEq]
        at same
      exact absurd same.1.symm otherUnsigned
  | false =>
    cases otherSign : isNegative y with
    | true =>
      simp only [sign, otherSign, if_true, Bool.false_eq_true, if_false, text, List.cons.injEq]
        at same
      exact absurd same.1 unsigned
    | false => simpa [sign, otherSign] using same

/-- What is shown of a defined number is not what is shown of an undefined one. -/
theorem shown_ne_undefined (x : Float) :
    (if isNegative x then '-' :: shownSize x else shownSize x) ≠ ['n', 'a', 'n'] := by
  obtain ⟨first, rest, text, defined, _⟩ := head_shownSize x
  split
  · simp
  · rw [text]
    exact fun same => defined (List.cons.inj same).1

/-- No two numbers show the same text. -/
theorem display_injective : Function.Injective display := by
  intro x y same
  have shown := congrArg String.toList same
  rw [display_eq, display_eq] at shown
  -- What is shown of a result that is not a number is shown of nothing else.
  cases undefined : x.isNaN with
  | true =>
    cases otherUndefined : y.isNaN with
    | true => exact (eq_iff x y).mpr (.inl ⟨undefined, otherUndefined⟩)
    | false =>
      simp only [undefined, otherUndefined, if_true, Bool.false_eq_true, if_false] at shown
      exact absurd shown.symm (shown_ne_undefined y)
  | false =>
    cases otherUndefined : y.isNaN with
    | true =>
      simp only [undefined, otherUndefined, if_true, Bool.false_eq_true, if_false] at shown
      exact absurd shown (shown_ne_undefined x)
    | false =>
      simp only [undefined, otherUndefined, Bool.false_eq_true, if_false] at shown
      -- The sign and the digits behind it are each read back.
      obtain ⟨signs, sizes⟩ := isNegative_of_shown shown
      exact eq_of_shownSize signs sizes

end Number

namespace Value

/-- No loaded tree has a type that a program can compute with. -/
theorem typeName_loaded_ne {a : Value} (proper : a.isProper = true) (tree : Composite) :
    a.typeName ≠ (loaded tree).typeName := by
  rcases tree with ⟨tree, composite⟩
  cases a with
  | nil | bool | number | string =>
    cases tree <;> simp [Node.isComposite, Node.typeName, typeName] at composite ⊢
  | int | null | token | garbled | loaded => cases proper

/-- What a value shows and the name of its type determine it up to likeness, if a
program can compute with it. -/
theorem alike_of_display {a b : Value} (proper : a.isProper = true)
    (types : a.typeName = b.typeName) (shown : a.display = b.display) : a.Alike b := by
  -- Values of one type have one form; of these only numbers and strings show more
  -- than a fixed text.
  cases b with
  | loaded tree => exact absurd types (typeName_loaded_ne proper tree)
  | nil =>
    cases a with
    | nil => exact .refl nil
    | _ => simp [typeName, isProper] at types proper
  | bool other =>
    cases a with
    | bool truth =>
      obtain rfl : truth = other := by
        cases truth <;> cases other <;> simp [display] at shown ⊢
      exact .refl _
    | _ => simp [typeName, isProper] at types proper
  | number y =>
    cases a with
    | number x => exact .number (Number.display_injective (Text.plain.inj shown))
    | _ => simp [typeName, isProper] at types proper
  | string other =>
    cases a with
    | string text =>
      obtain rfl : text = other := Text.plain.inj shown
      exact .refl _
    | _ => simp [typeName, isProper] at types proper
  | garbled text =>
    cases a with
    | string => cases shown
    | _ => simp [typeName, isProper] at types proper
  | int | null | token =>
    cases a <;> simp [typeName, isProper] at types proper

/-- Values that are alike have one type and show one text. -/
theorem Alike.display {a b : Value} (alike : a.Alike b) :
    a.typeName = b.typeName ∧ a.display = b.display := by
  cases alike with
  | refl => exact ⟨rfl, rfl⟩
  | number same => exact ⟨rfl, congrArg (fun x => Text.plain (Number.display x)) same⟩

/--
Display and equality agree.

A value that a program can compute with is equal to another exactly if their types have the same
name and both show the same text.
-/
theorem isEqual_iff_display {a b : Value} (proper : a.isProper = true) :
    a.isEqual b = true ↔ a.typeName = b.typeName ∧ a.display = b.display := by
  rw [isEqual_iff_alike proper]
  exact ⟨Alike.display, fun ⟨types, shown⟩ => alike_of_display proper types shown⟩

/--
A number and the string of its digits show the same text and are told apart by their types.

The zeros are told apart by their texts, and undefined numbers of both signs are one.
-/
theorem isEqual_iff_display_one_and_zeros :
    let one := number (.ofFloat 1.0)
    let zero := number (.ofFloat 0.0)
    let minusZero := number (.ofFloat (-0.0))
    let undefined := number (.ofFloat (0.0 / 0.0))
    let minusUndefined := number (.signed true (0.0 / 0.0))
    (one.isEqual (string "1") = true ↔
      one.typeName = (string "1").typeName ∧ one.display = (string "1").display) ∧
        one.display = "1" ∧
    (zero.isEqual minusZero = true ↔
      zero.typeName = minusZero.typeName ∧ zero.display = minusZero.display) ∧
        minusZero.display = "-0" ∧
    (undefined.isEqual minusUndefined = true ↔
      undefined.typeName = minusUndefined.typeName ∧ undefined.display = minusUndefined.display) ∧
    minusUndefined.display = "nan" :=
  ⟨isEqual_iff_display rfl, by decide, isEqual_iff_display rfl, by decide,
    isEqual_iff_display rfl, by decide⟩

end Value

end LoxLang
