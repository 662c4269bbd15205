import LoxLang.Proofs.Decimal.Shortest
import LoxLang.Proofs.Value.Display

/-!
The texts that values show, as rules.

A number is shown by the shortest decimal that reads back as it. Small and large ones have an
exponent, and whole ones have no fraction.
-/

namespace LoxLang.Reference

open Decimal Float.Model Float.Model.UnpackedFloat

/-- What is behind the mark of an exponent: a sign and at least two digits. -/
def exponentText (lead : Int) : List Char :=
  (if lead < 0 then '-' else '+') :: (if lead.natAbs < 10 then ['0'] else []) ++
    Nat.toDigits 10 lead.natAbs

/-- How the digits of a decimal are laid out, the leading one at ten to the `lead`. -/
inductive LaidOut (digits : List Char) (lead : Int) : List Char → Prop where
  /-- Up to sixteen places before the point are written out. -/
  | whole {count : ℕ} : digits.length + count = lead + 1 → lead < 16 →
    LaidOut digits lead (digits ++ List.replicate count '0')
  | point {before behind : List Char} : digits = before ++ behind → before.length = lead + 1 →
    behind ≠ [] →
      0 ≤ lead → lead < 16 →
    LaidOut digits lead (before ++ '.' :: behind)
  /-- Up to three zeros behind the point are written out. -/
  | fraction {count : ℕ} : lead + 1 + count = 0 → -4 ≤ lead →
    LaidOut digits lead ('0' :: '.' :: List.replicate count '0' ++ digits)
  | exponent {digit : Char} : digits = [digit] → lead < -4 ∨ 16 ≤ lead →
    LaidOut digits lead (digit :: 'e' :: exponentText lead)
  | pointExponent {digit : Char} {others : List Char} : digits = digit :: others → others ≠ [] →
      lead < -4 ∨ 16 ≤ lead →
    LaidOut digits lead (digit :: '.' :: others ++ 'e' :: exponentText lead)

/-- Digits are laid out in one way. -/
theorem LaidOut.unique {digits first second : List Char} {lead : Int} (filled : digits ≠ [])
    (laidOut : LaidOut digits lead first) (also : LaidOut digits lead second) : first = second := by
  -- Where the leading digit stands decides the form, and before the point also how
  -- many digits there are.
  have some := List.length_pos_iff.mpr filled
  cases laidOut with
  | @whole count all _ =>
    cases also with
    | @whole other allAgain _ =>
      obtain rfl : count = other := by omega
      rfl
    | @point before behind split length rest _ _ =>
      have := List.length_pos_iff.mpr rest
      rw [split, List.length_append] at all
      omega
    | fraction | exponent | pointExponent => omega
  | @point before behind split length rest _ _ =>
    have more := List.length_pos_iff.mpr rest
    cases also with
    | whole all _ =>
      rw [split, List.length_append] at all
      omega
    | @point otherBefore otherBehind again lengthAgain _ _ _ =>
      obtain ⟨rfl, rfl⟩ := List.append_inj (split.symm.trans again) (by omega)
      rfl
    | fraction | exponent | pointExponent => omega
  | @fraction count zeros _ =>
    cases also with
    | @fraction other zerosAgain _ =>
      obtain rfl : count = other := by omega
      rfl
    | whole | point | exponent | pointExponent => omega
  | exponent single far =>
    cases also with
    | exponent singleAgain _ =>
      obtain ⟨rfl, _⟩ := List.cons.inj (single.symm.trans singleAgain)
      rfl
    | pointExponent several rest _ =>
      exact absurd (List.cons.inj (single.symm.trans several)).2.symm rest
    | whole | point | fraction => omega
  | pointExponent several rest far =>
    cases also with
    | exponent single _ => exact absurd (List.cons.inj (several.symm.trans single)).2 rest
    | pointExponent severalAgain _ _ =>
      obtain ⟨rfl, rfl⟩ := List.cons.inj (several.symm.trans severalAgain)
      rfl
    | whole | point | fraction => omega

/-- What stands in front of a negative number. -/
def minus : Sign → List Char
  | .positive => []
  | .negative => ['-']

/-- The text that a number shows. -/
inductive ShowsNumber : UnpackedFloat → List Char → Prop where
  | undefined : ShowsNumber .notANumber ['n', 'a', 'n']
  | infinity (sign : Sign) : ShowsNumber (.infinity sign) (minus sign ++ ['i', 'n', 'f'])
  | zero (sign : Sign) : ShowsNumber (.zero sign) (minus sign ++ ['0'])
  | finite (sign : Sign) {significand : ℕ} {exponent : ℤ} (positive : 0 < significand) {d : Scaled}
      {text : List Char} :
    IsShortest (RoundsTo significand exponent) (significand * 2 ^ exponent) d →
    LaidOut (Nat.toDigits 10 d.coefficient)
      (d.exponent + (Nat.toDigits 10 d.coefficient).length - 1) text →
    ShowsNumber (.finite sign significand exponent positive) (minus sign ++ text)

/-- A number shows one text. -/
theorem ShowsNumber.unique {x : UnpackedFloat} {first second : List Char}
    (shows : ShowsNumber x first) (also : ShowsNumber x second) : first = second := by
  cases shows with
  | undefined | infinity | zero =>
    cases also
    rfl
  | finite sign positive shortest laidOut =>
    cases also with
    | finite _ _ shortestAgain laidOutAgain =>
      obtain rfl := shortest.unique (roundsTo_self _ _) shortestAgain
      rw [laidOut.unique Nat.toDigits_ne_nil laidOutAgain]

end LoxLang.Reference

namespace LoxLang.Decimal

/-- Each multiplication by ten puts a zero behind the digits. -/
theorem toDigits_mul_pow {n : Nat} (positive : 0 < n) (count : Nat) :
    Nat.toDigits 10 (n * 10 ^ count) = Nat.toDigits 10 n ++ zeros count := by
  induction count with
  | zero => simp [zeros]
  | succ count ih =>
    have filled : 0 < n * 10 ^ count := Nat.mul_pos positive (Nat.pow_pos (by decide))
    have shifted := Nat.toDigits_append_toDigits (b := 10) (d := 0) (by decide) filled (by decide)
    have same : 10 * (n * 10 ^ count) + 0 = n * 10 ^ (count + 1) := by ring
    rw [same, ih, Nat.toDigits_zero] at shifted
    rw [← shifted, List.append_assoc, zeros, zeros, List.replicate_succ']

/-- The last digit of a number is no zero unless ten divides the number. -/
theorem toDigits_eq_concat {n : Nat} (indivisible : n % 10 ≠ 0) :
    ∃ front last, Nat.toDigits 10 n = front ++ [last] ∧ last ≠ '0' := by
  have digit : (n % 10).digitChar ≠ '0' := by
    have others : ∀ digit : Fin 10, digit.val ≠ 0 → digit.val.digitChar ≠ '0' := by decide
    exact others ⟨n % 10, Nat.mod_lt _ (by decide)⟩ indivisible
  rw [Nat.toDigits_eq_if (by decide)]
  split
  case isTrue small => exact ⟨[], n.digitChar, rfl, by rwa [Nat.mod_eq_of_lt small] at digit⟩
  case isFalse => exact ⟨_, _, rfl, digit⟩

/-- The digits of a decimal are those of its coefficient without the zeros behind them. -/
theorem Scaled.digits_eq {n : Nat} (indivisible : n % 10 ≠ 0) (count : Nat) (exponent : Int) :
    digits { coefficient := n * 10 ^ count, exponent := exponent - count } =
      (Nat.toDigits 10 n, exponent + (Nat.toDigits 10 n).length - 1) := by
  obtain ⟨front, last, same, nonzero⟩ := toDigits_eq_concat indivisible
  have some : 0 < (Nat.toDigits 10 n).length := Nat.length_toDigits_pos
  rw [digits, toDigits_mul_pow (by omega), Prod.mk.injEq]
  constructor
  · rw [same]
    simp [zeros, nonzero]
  · simp only [zeros, List.length_append, List.length_replicate]
    omega

/-- Digits that end with no zero are not shortened. -/
theorem dropWhole_append {text front : List Char} {last : Char} (nonzero : last ≠ '0') :
    Number.dropWhole (text ++ (front ++ [last])) = text ++ (front ++ [last]) := by
  apply dropWhole_other
  intro before same
  rw [List.reverse_append, List.reverse_append] at same
  exact nonzero (List.cons.inj same).1

/-- An exponent is written with its sign and at least two digits. -/
theorem signedExponent_eq (lead : Int) : signedExponent 2 lead = Reference.exponentText lead := by
  have single := Nat.length_toDigits_le_iff (b := 10) (n := lead.natAbs) (by decide) Nat.one_pos
  have some : 0 < (Nat.toDigits 10 lead.natAbs).length := Nat.length_toDigits_pos
  rw [signedExponent, Reference.exponentText]
  -- A single digit is the only case that is filled up.
  by_cases small : lead.natAbs < 10
  · have length : 2 - (Nat.toDigits 10 lead.natAbs).length = 1 := by
      have := single.mpr small
      omega
    rw [length, if_pos small]
    rfl
  · have length : 2 - (Nat.toDigits 10 lead.natAbs).length = 0 := by
      have := mt single.mp small
      omega
    rw [length, if_neg small]
    rfl

/-- Digits that end with no zero are laid out by the rules, once a final point and zero is gone. -/
theorem laidOut_write {digits front : List Char} {last : Char} (ends : digits = front ++ [last])
    (nonzero : last ≠ '0') (lead : Int) :
    Reference.LaidOut digits lead (Number.dropWhole (Number.layout.write digits lead)) := by
  have filled : digits ≠ [] := by simp [ends]
  unfold Layout.write positional
  -- The cases are those of the program: positional or not, and where the point stands.
  split
  case isTrue moderate =>
    change -4 ≤ lead ∧ lead < 16 at moderate
    split
    case isTrue small =>
      have text : '0' :: '.' :: zeros (-lead - 1).toNat ++ digits =
          ('0' :: '.' :: zeros (-lead - 1).toNat) ++ (front ++ [last]) := by rw [ends]
      rw [text, dropWhole_append nonzero, ← ends]
      exact .fraction (by omega) moderate.1
    case isFalse large =>
      dsimp only
      split
      case isTrue short =>
        rw [dropWhole_whole]
        exact .whole (by omega) moderate.2
      case isFalse long =>
        -- The last digit stands behind the point.
        have rest : digits.drop (lead.toNat + 1) ≠ [] := by
          rw [Ne, List.drop_eq_nil_iff]
          exact long
        have behind : digits.drop (lead.toNat + 1) = front.drop (lead.toNat + 1) ++ [last] := by
          rw [ends, List.length_append, List.length_singleton] at long
          rw [ends, List.drop_append_of_le_length (by omega)]
        have text : digits.take (lead.toNat + 1) ++ '.' :: digits.drop (lead.toNat + 1) =
            (digits.take (lead.toNat + 1) ++ ['.']) ++ (front.drop (lead.toNat + 1) ++ [last]) := by
          rw [behind, List.append_assoc]
          rfl
        rw [text, dropWhole_append nonzero, ← text]
        refine .point (List.take_append_drop _ _).symm ?_ rest (by omega) moderate.2
        rw [List.length_take]
        omega
  -- With an exponent the text does not end with a point and a zero, so nothing is dropped.
  case isFalse extreme =>
    have far : lead < -4 ∨ 16 ≤ lead := by
      change ¬(-4 ≤ lead ∧ lead < 16) at extreme
      omega
    rw [dropWhole_scientific, scientific]
    change Reference.LaidOut digits lead (_ ++ 'e' :: signedExponent 2 lead)
    rw [signedExponent_eq]
    obtain ⟨digit, others, rfl⟩ := List.exists_cons_of_ne_nil filled
    by_cases single : others = []
    · subst single
      exact .exponent rfl far
    · have several : ¬(digit :: others).length ≤ 1 := by
        have := List.length_pos_iff.mpr single
        simp only [List.length_cons]
        omega
      rw [if_neg several]
      exact .pointExponent rfl single far

end LoxLang.Decimal

namespace LoxLang.Number

open Decimal Float.Model Float.Model.UnpackedFloat Reference

/-- The significand and the exponent of a number are those that it is taken apart into. -/
theorem magnitude_of_unpack {x : Float} {sign : Sign} {significand : Nat} {exponent : Int}
    {positive : 0 < significand}
    (form : x.toModel.unpack = .finite sign significand exponent positive) :
    (magnitude x).significand = significand ∧ (magnitude x).exponent = exponent ∧
      (magnitude x).Canonical := by
  obtain ⟨_, exponents, mantissas⟩ := toNat_fields x.toModel.toBits.toBitVec
  have fields := fields_of_finite form
  have bounded : x.toModel.toBits.toBitVec.toNat % 2 ^ 52 < 2 ^ 52 := Nat.mod_lt _ (by norm_num)
  -- Both sides are read off the exponent field and the fraction field.
  have taken : magnitude x =
      if x.toModel.toBits.toBitVec.toNat / 2 ^ 52 % 2 ^ 11 = 0 then
        ⟨x.toModel.toBits.toBitVec.toNat % 2 ^ 52, -1074, false⟩
      else
        ⟨x.toModel.toBits.toBitVec.toNat % 2 ^ 52 + 2 ^ 52,
          (x.toModel.toBits.toBitVec.toNat / 2 ^ 52 % 2 ^ 11 : ℕ) - 1075,
          x.toModel.toBits.toBitVec.toNat % 2 ^ 52 = 0 && 1 <
            x.toModel.toBits.toBitVec.toNat / 2 ^ 52 % 2 ^ 11⟩ := rfl
  rw [exponents, mantissas] at fields
  rw [taken]
  generalize x.toModel.toBits.toBitVec.toNat % 2 ^ 52 = fraction at fields bounded ⊢
  generalize x.toModel.toBits.toBitVec.toNat / 2 ^ 52 % 2 ^ 11 = biased at fields ⊢
  -- A number of the lowest exponent has no hidden digit, every other one has.
  rcases fields with ⟨lowest, rfl, rfl⟩ | ⟨higher, rfl, rfl⟩
  · rw [if_pos lowest]
    exact ⟨rfl, rfl, positive, by dsimp only; omega, le_rfl, fun _ => rfl, by simp⟩
  · rw [if_neg higher]
    refine ⟨Nat.add_comm _ _, rfl, ?_⟩
    constructor <;> simp <;> omega

/-- A number shows a sign if its first bit is set. -/
theorem minus_of_signOf? {x : Float} {sign : Sign} (defined : x.isNaN = false)
    (shown : signOf? x.toModel.unpack = some sign) :
    minus sign = if isNegative x then ['-'] else [] := by
  obtain rfl := Option.some.inj (shown.symm.trans (signOf?_eq_some defined))
  cases isNegative x <;> rfl

/-- Whether a number is infinite shows when it is taken apart. -/
theorem isInf_of_unpack {x : Float} {form : UnpackedFloat} (taken : x.toModel.unpack = form) :
    x.isInf = form.isInf := by
  rw [← taken]
  rfl

/-- What is shown of the size of a number that is neither infinite nor zero is the
shortest decimal, laid out. -/
theorem laidOut_shownSize {x : Float} {sign : Sign} {significand : Nat} {exponent : Int}
    {positive : 0 < significand}
    (form : x.toModel.unpack = .finite sign significand exponent positive) :
    ∃ d : Scaled, IsShortest (RoundsTo significand exponent) (significand * 2 ^ exponent) d ∧
      LaidOut (Nat.toDigits 10 d.coefficient)
        (d.exponent + (Nat.toDigits 10 d.coefficient).length - 1)
        (shownSize x) := by
  have finite : x.isInf = false := isInf_of_unpack form
  have nonzero : (x == 0.0) = false := by
    rw [Bool.eq_false_iff]
    intro zero
    obtain ⟨_, same⟩ := unpack_of_zero zero
    rw [form] at same
    cases same
  -- The decimal found is the shortest that rounds back; with no zero at its end its digits are its
  -- own.
  obtain ⟨rfl, rfl, canonical⟩ := magnitude_of_unpack form
  obtain ⟨d, zeros, shortest, same⟩ := canonical.isShortest_shortest
  have indivisible := shortest.coefficient_mod_ne_zero
  obtain ⟨front, last, ends, lastNonzero⟩ := toDigits_eq_concat indivisible
  rw [canonical.holds_eq_roundsTo] at shortest
  refine ⟨d, shortest, ?_⟩
  rw [shownSize, unsignedText, finite, nonzero, same, Scaled.digits_eq indivisible]
  exact laidOut_write ends lastNonzero _

/-- What a program shows of a number is what the rules say. -/
theorem shows_display (x : Float) : ShowsNumber x.toModel.unpack (display x).toList := by
  rw [display_eq]
  cases undefined : x.isNaN with
  | true =>
    rw [unpack_of_isNaN undefined]
    exact .undefined
  | false =>
    -- Whatever is defined has a sign in front of its size.
    have signed {sign : Sign} (shown : signOf? x.toModel.unpack = some sign) :
        (if false = true then ['n', 'a', 'n'] else if isNegative x then '-' :: shownSize x
          else shownSize x) =
          minus sign ++ shownSize x := by
      rw [minus_of_signOf? undefined shown, if_neg Bool.false_ne_true]
      split <;> rfl
    cases form : x.toModel.unpack with
    | notANumber =>
      change x.toModel.unpack.isNaN = false at undefined
      rw [form] at undefined
      cases undefined
    | infinity sign =>
      have infinite : x.isInf = true := isInf_of_unpack form
      have size : shownSize x = ['i', 'n', 'f'] := by
        rw [shownSize, unsignedText, infinite]
        rfl
      rw [signed (by rw [form]; rfl), size]
      exact .infinity sign
    | zero sign =>
      have finite : x.isInf = false := isInf_of_unpack form
      have isZero : (x == 0.0) = true := by
        rw [beq_iff, form]
        rfl
      have size : shownSize x = ['0'] := by
        rw [shownSize, unsignedText, finite, isZero]
        rfl
      rw [signed (by rw [form]; rfl), size]
      exact .zero sign
    -- The only case with digits: the shortest ones, laid out.
    | finite sign significand exponent positive =>
      obtain ⟨d, shortest, laidOut⟩ := laidOut_shownSize form
      rw [signed (by rw [form]; rfl)]
      exact .finite sign positive shortest laidOut

end LoxLang.Number
