/-
# Integers in JSON

A number without a point and an exponent is an integer of any length. Those that fit 64
bits with a sign are kept as they are. All others become floats: the largest ones from as
many of their digits as are kept exactly, times a power of ten for the others, by one
product of floats. What becomes of them is whole, has the sign that is written, and is
written as the shortest decimal of that float, which need not be the integer.
-/

import OData.Json.Basic
import OData.Proofs.Number.Notation

namespace OData.Json

/-! ## Digits -/

/-- Digits that all fit make the number they write. -/
theorem appendDigits_of_fit {significand : Nat} {digits : List Nat} {whole : Nat}
    (fits : appendDigits significand digits = (whole, 0)) :
    digits.foldl (fun n d => n * 10 + d) significand = whole ∧
      (significand ≤ greatestExact → whole ≤ greatestExact) := by
  induction digits generalizing significand with
  | nil =>
      cases fits
      exact ⟨rfl, id⟩
  | cons d rest ih =>
      rw [appendDigits] at fits
      split at fits
      · rename_i small
        exact ⟨(ih fits).1, fun _ => (ih fits).2 small⟩
      · cases fits

theorem le_foldl_digits (digits : List Nat) (significand : Nat) :
    significand ≤ digits.foldl (fun n d => n * 10 + d) significand := by
  induction digits generalizing significand with
  | nil => exact le_refl _
  | cons d rest ih => exact le_trans (by omega) (ih (significand * 10 + d))

/-- When digits are dropped, one more would have been too many. -/
theorem appendDigits_of_drop {significand : Nat} {digits : List Nat} {whole dropped : Nat}
    (areDigits : ∀ d ∈ digits, d < 10)
    (drops : appendDigits significand digits = (whole, dropped + 1)) :
    greatestExact < digits.foldl (fun n d => n * 10 + d) significand ∧
      greatestExact < whole * 10 + 10 ∧
      (significand ≤ greatestExact → whole ≤ greatestExact) := by
  induction digits generalizing significand with
  | nil => cases drops
  | cons d rest ih =>
      obtain ⟨isDigit, others⟩ := List.forall_mem_cons.mp areDigits
      rw [appendDigits] at drops
      split at drops
      · rename_i small
        obtain ⟨large, next, bound⟩ := ih others drops
        exact ⟨large, next, fun _ => bound small⟩
      · rename_i large
        cases drops
        have grows := le_foldl_digits rest (whole * 10 + d)
        exact ⟨lt_of_lt_of_le (not_le.mp large) grows, by omega, id⟩

/-! ## Integer literals -/

/-- A numeral writes an integer: it is digits, perhaps with a minus that is not in front of
a zero. -/
structure Numeral.Writes (numeral : Numeral) (integer : Int) : Prop where
  noFraction : numeral.fraction = none
  noExponent : numeral.exponent = none
  areDigits : ∀ d ∈ numeral.whole, d < 10
  integer_eq : integer =
    if numeral.negative then -(digitsNat numeral.whole : Int) else digitsNat numeral.whole
  notMinusZero : numeral.negative = true → integer ≠ 0

/-- The number is a float, large and whole, with the sign that is given. -/
def Number.IsRounded (number : Number) (negative : Bool) : Prop :=
  number.int64? = none ∧ ∃ value, Number.floatKind number.toFloat = .finite value ∧
    value.negative = negative ∧ 2 ^ 52 ≤ value.significand ∧ 8 ≤ value.exponent

/-- What is left of an integer when no more digits fit, as a float. -/
theorem exists_unpack_significand {whole : Nat} (low : 2 ^ 60 ≤ whole)
    (bound : whole ≤ greatestExact) :
    ∃ significand exponent positive,
      (UInt64.ofNat whole).toFloat.toModel.unpack =
          .finite .positive significand exponent positive ∧
        2 ^ 52 ≤ significand ∧ significand < 2 ^ 53 ∧ 8 ≤ exponent :=
  @Number.exists_unpack_toFloat whole 8 low (Nat.lt_succ_of_le bound)

theorem exists_floatKind_significand {whole : Nat} (low : 2 ^ 60 ≤ whole)
    (bound : whole ≤ greatestExact) :
    ∃ significand exponent,
      Number.floatKind (UInt64.ofNat whole).toFloat = .finite ⟨false, significand, exponent⟩ ∧
        2 ^ 52 ≤ significand ∧ 8 ≤ exponent := by
  obtain ⟨significand, exponent, _, isNumber, low, -, isLeast⟩ :=
    exists_unpack_significand low bound
  refine ⟨significand, exponent, ?_, low, isLeast⟩
  rw [Number.floatKind_eq_kindOf, isNumber]
  rfl

/-- The product with a power of ten is whole as well, unless it is too large. -/
theorem exists_floatKind_scaled {whole : Nat} (low : 2 ^ 60 ≤ whole)
    (bound : whole ≤ greatestExact) {dropped : Nat} {x : Float}
    (isScaled : scaled? whole dropped = some x) :
    ∃ significand exponent, Number.floatKind x = .finite ⟨false, significand, exponent⟩ ∧
      2 ^ 52 ≤ significand ∧ 8 ≤ exponent := by
  obtain ⟨significand, exponent, _, isNumber, isFull, isShort, isLeast⟩ :=
    exists_unpack_significand low bound
  have isAtLeast : Number.IsAtLeast 8 (UInt64.ofNat whole).toFloat.toModel.unpack := by
    rw [isNumber]
    exact ⟨isFull, isShort, isLeast⟩
  rw [scaled?, if_neg (by omega)] at isScaled
  dsimp only at isScaled
  split at isScaled
  · split at isScaled
    · rename_i isFinite
      cases isScaled
      have product := isAtLeast.mul_float (Number.IsAtLeast.powerOfTen dropped) (by decide)
      exact product.exists_value isFinite
    · cases isScaled
  · rw [if_neg (by omega)] at isScaled
    cases isScaled

theorem isRounded_of_floatKind {x : Float} {significand : Nat} {exponent : Int}
    (kind : Number.floatKind x = .finite ⟨false, significand, exponent⟩)
    (low : 2 ^ 52 ≤ significand) (isLeast : 8 ≤ exponent) (negative : Bool) :
    (Number.decimal (if negative then -x else x)).IsRounded negative := by
  refine ⟨rfl, ⟨negative, significand, exponent⟩, ?_, rfl, low, isLeast⟩
  cases negative
  · exact kind
  · exact Number.floatKind_neg kind low

namespace Numeral.Writes

variable {numeral : Numeral} {integer : Int} (writes : numeral.Writes integer)

include writes

theorem value?_of_fit {whole : Nat} (fits : appendDigits 0 numeral.whole = (whole, 0)) :
    numeral.value? =
      if !numeral.negative then some (.integer whole)
      else if whole = 0 || 0x8000000000000000 < whole then
        some (.decimal (-(UInt64.ofNat whole).toFloat))
      else some (.integer (-whole)) := by
  rw [Numeral.value?, fits, writes.noFraction, writes.noExponent]
  rfl

theorem value?_of_drop {whole dropped : Nat}
    (drops : appendDigits 0 numeral.whole = (whole, dropped + 1)) :
    numeral.value? = (scaled? whole (dropped + 1 : Nat)).map fun x =>
      .decimal (if numeral.negative then -x else x) := by
  rw [Numeral.value?, drops, writes.noFraction, writes.noExponent]
  rfl

omit writes in
theorem isRounded_integer {whole : Nat} (low : 2 ^ 60 ≤ whole) (bound : whole ≤ greatestExact)
    (tooLarge : Number.fitsInt64 whole = false) :
    (Number.integer whole).IsRounded false := by
  obtain ⟨significand, exponent, kind, isFull, isLeast⟩ :=
    exists_floatKind_significand low bound
  have notNegative : ¬ (whole : Int) < 0 := by omega
  refine ⟨?_, ⟨false, significand, exponent⟩, ?_, rfl, isFull, isLeast⟩
  · rw [Number.int64?, tooLarge, if_neg (by decide)]
  · rw [Number.toFloat, Int.natAbs_natCast, if_neg notNegative]
    exact kind

/-- An integer whose digits all fit. -/
theorem kept_or_rounded_of_fit {whole : Nat} (fits : appendDigits 0 numeral.whole = (whole, 0))
    {number : Number} (isValue : numeral.value? = some number) :
    if Number.fitsInt64 integer then number.int64? = some (Int64.ofInt integer)
    else number.IsRounded numeral.negative := by
  have isInteger := writes.integer_eq
  have notMinusZero := writes.notMinusZero
  obtain ⟨isWhole, bound⟩ := appendDigits_of_fit fits
  have notLarge := bound (Nat.zero_le _)
  change digitsNat numeral.whole = whole at isWhole
  rw [isWhole] at isInteger
  rw [writes.value?_of_fit fits] at isValue
  cases sign : numeral.negative with
  | false =>
      rw [sign, if_neg (by decide)] at isInteger
      rw [sign, Bool.not_false, if_pos rfl] at isValue
      obtain rfl := Option.some.inj isValue
      subst isInteger
      cases small : Number.fitsInt64 whole with
      | true => rw [if_pos rfl, Number.int64?, if_pos small]
      | false =>
          have low : 2 ^ 60 ≤ whole := by
            simp only [Number.fitsInt64, Bool.and_eq_false_iff, decide_eq_false_iff_not] at small
            omega
          rw [if_neg (by decide)]
          exact isRounded_integer low notLarge small
  | true =>
      rw [sign, if_pos rfl] at isInteger
      rw [sign, Bool.not_true, if_neg (by decide)] at isValue
      have notZero := notMinusZero sign
      subst isInteger
      by_cases large : 0x8000000000000000 < whole
      · have tooLarge : Number.fitsInt64 (-whole) = false := by
          simp only [Number.fitsInt64, Bool.and_eq_false_iff, decide_eq_false_iff_not]
          omega
        rw [if_pos (by simp [large])] at isValue
        cases isValue
        obtain ⟨significand, exponent, kind, isFull, isLeast⟩ :=
          exists_floatKind_significand (by omega) notLarge
        rw [tooLarge, if_neg (by decide)]
        exact isRounded_of_floatKind kind isFull isLeast true
      · have small : Number.fitsInt64 (-whole) = true := by
          simp only [Number.fitsInt64, Bool.and_eq_true, decide_eq_true_eq]
          omega
        have some : whole ≠ 0 := by omega
        rw [if_neg (by simp [large, some])] at isValue
        cases isValue
        rw [if_pos small, Number.int64?, if_pos small]

/-- An integer that fits 64 bits is kept, and every other one is rounded. -/
theorem kept_or_rounded {number : Number} (isValue : numeral.value? = some number) :
    if Number.fitsInt64 integer then number.int64? = some (Int64.ofInt integer)
    else number.IsRounded numeral.negative := by
  have isInteger := writes.integer_eq
  cases isParts : appendDigits 0 numeral.whole with
  | mk whole dropped =>
  cases dropped with
  | zero => exact writes.kept_or_rounded_of_fit isParts isValue
  | succ dropped =>
      obtain ⟨large, next, bound⟩ := appendDigits_of_drop writes.areDigits isParts
      have notLarge := bound (Nat.zero_le _)
      change greatestExact < digitsNat numeral.whole at large
      have low : 2 ^ 60 ≤ whole := by
        unfold greatestExact at next
        omega
      have tooLarge : Number.fitsInt64 integer = false := by
        unfold greatestExact at large
        simp only [Number.fitsInt64, Bool.and_eq_false_iff, decide_eq_false_iff_not]
        split at isInteger <;> omega
      rw [writes.value?_of_drop isParts, Option.map_eq_some_iff] at isValue
      obtain ⟨x, isScaled, rfl⟩ := isValue
      obtain ⟨significand, exponent, kind, isFull, isLeast⟩ :=
        exists_floatKind_scaled low notLarge isScaled
      rw [tooLarge, if_neg (by decide)]
      exact isRounded_of_floatKind kind isFull isLeast _

end Numeral.Writes

/-! ## Rounded integers -/

/-- The integer is the shortest decimal of the float that a numeral stands for. -/
def Numeral.RoundsTo (numeral : Numeral) (integer : Int) : Prop :=
  ∃ number value decimal, numeral.value? = some number ∧
    Number.floatKind number.toFloat = .finite value ∧ value.IsShortest .upward decimal ∧
    0 ≤ decimal.exponent ∧ integer = decimal.integer value.negative

/-- A numeral rounds to one integer at most. -/
theorem Numeral.RoundsTo.unique {numeral : Numeral} {integer other : Int}
    (rounds : numeral.RoundsTo integer) (roundsOther : numeral.RoundsTo other) :
    integer = other := by
  obtain ⟨number, value, decimal, isNumber, isFinite, isShortest, -, rfl⟩ := rounds
  obtain ⟨same, sameValue, otherDecimal, isSame, isSameValue, isOther, -, rfl⟩ := roundsOther
  obtain rfl := Option.some.inj (isNumber.symm.trans isSame)
  cases isFinite.symm.trans isSameValue
  rw [isShortest.unique isOther]

/-- The integer has at most so many digits before its last zeros. -/
def HasDigits (count : Nat) (integer : Int) : Prop :=
  ∃ digits zeros, digits < 10 ^ count ∧ integer.natAbs = digits * 10 ^ zeros

theorem large_of_significand {value : Number.Binary} (low : 2 ^ 52 ≤ value.significand)
    (isLeast : 8 ≤ value.exponent) : 10 ^ 16 ≤ value.size := by
  have significand : (2 : ℚ) ^ 52 ≤ value.significand := by exact_mod_cast low
  have power : (2 : ℚ) ^ (8 : Int) ≤ 2 ^ value.exponent :=
    zpow_le_zpow_right₀ (by norm_num) isLeast
  calc (10 : ℚ) ^ 16 ≤ (2 : ℚ) ^ 52 * (2 : ℚ) ^ (8 : Int) := by norm_num
    _ ≤ value.significand * (2 : ℚ) ^ value.exponent := by gcongr

/-- A number that is rounded is written as the integer it is rounded to, which has no more
than seventeen digits before its last zeros. -/
theorem Numeral.exists_roundsTo {numeral : Numeral} {number : Number} {negative : Bool}
    (isValue : numeral.value? = some number) (isRounded : number.IsRounded negative) :
    ∃ integer, numeral.RoundsTo integer ∧
      Number.plainText number.toFloat = toString integer ∧ HasDigits 17 integer := by
  obtain ⟨-, value, isFinite, -, low, isLeast⟩ := isRounded
  have nonzero : value.significand ≠ 0 := by omega
  have proper := Number.isProper_of_floatKind isFinite
  have large := large_of_significand low isLeast
  have isShortest := Number.Binary.isShortest_shortest proper nonzero .upward
  have isWhole := Number.Binary.exponent_nonneg proper nonzero isShortest large
  have few := Number.Binary.digits_lt proper nonzero isShortest
  refine ⟨_, ⟨number, value, _, isValue, isFinite, isShortest, isWhole, rfl⟩,
    Number.plainText_of_whole isFinite nonzero large, _,
    (value.shortest .upward).exponent.toNat, few, ?_⟩
  rw [Number.Decimal.integer]
  split
  · exact Int.natAbs_neg _
  · rfl

end OData.Json
