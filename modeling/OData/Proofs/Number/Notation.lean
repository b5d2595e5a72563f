/-
# Whole numbers as plain text

The digits of a shortest decimal are written without their last zeros, and zeros are put
behind them up to the point. When the point is not among the digits, both together write
the decimal as a natural number. So plain text writes a large float as an integer: the
shortest decimal of the float, which has seventeen digits at most before its zeros.
-/

import OData.Number.Notation
import OData.Proofs.Number.Numeral
import OData.Proofs.Number.Shortest
import Mathlib.Data.List.TakeWhile

namespace OData.Number

/-! ## Digits -/

theorem natChars_mul_pow {n : Nat} (positive : 0 < n) (count : Nat) :
    natChars (n * 10 ^ count) = natChars n ++ List.replicate count '0' := by
  induction count with
  | zero => simp
  | succ count ih =>
      have zero : Nat.toDigits 10 0 = ['0'] := rfl
      have next : n * 10 ^ (count + 1) = 10 * (n * 10 ^ count) + 0 := by
        rw [Nat.pow_succ, Nat.add_zero, Nat.mul_comm 10, Nat.mul_assoc]
      rw [next, natChars, ← Nat.toDigits_append_toDigits (by decide) (by positivity) (by decide),
        zero, ← natChars, ih, List.append_assoc, ← List.replicate_succ']

/-- What is left without the last zeros, and how many these are. -/
theorem exists_zeros (chars : List Char) :
    ∃ count,
      chars = (chars.reverse.dropWhile (· == '0')).reverse ++ List.replicate count '0' := by
  refine ⟨(chars.reverse.takeWhile (· == '0')).length, ?_⟩
  have zeros : chars.reverse.takeWhile (· == '0') =
      List.replicate (chars.reverse.takeWhile (· == '0')).length '0' := by
    apply List.eq_replicate_iff.mpr ⟨rfl, fun c isMember => ?_⟩
    exact eq_of_beq (List.mem_takeWhile_imp (p := (· == '0')) isMember)
  calc chars = (chars.reverse.takeWhile (· == '0') ++
          chars.reverse.dropWhile (· == '0')).reverse := by
        rw [List.takeWhile_append_dropWhile, List.reverse_reverse]
    _ = (chars.reverse.dropWhile (· == '0')).reverse ++
          (chars.reverse.takeWhile (· == '0')).reverse := List.reverse_append
    _ = _ := by conv_lhs => rw [zeros, List.reverse_replicate]

/-- With its point behind all digits, a decimal is written as a natural number. -/
theorem positional_of_whole {digits : Nat} (positive : 0 < digits) (zeros : Nat) :
    positional false ((natChars digits).reverse.dropWhile (· == '0')).reverse
        (zeros + (natChars digits).length) = natChars (digits * 10 ^ zeros) := by
  obtain ⟨count, parts⟩ := exists_zeros (natChars digits)
  generalize ((natChars digits).reverse.dropWhile (· == '0')).reverse = stripped at parts
  have length := congrArg List.length parts
  have some : 0 < (natChars digits).length := List.length_pos_iff.mpr Nat.toDigits_ne_nil
  rw [List.length_append, List.length_replicate] at length
  have places : ((zeros : Int) + (natChars digits).length).toNat - stripped.length =
      count + zeros := by omega
  rw [positional, if_neg (by omega), if_pos (by omega), places, natChars_mul_pow positive,
    List.replicate_add, ← List.append_assoc, ← parts]
  simp

/-! ## Written values -/

/-- The natural number that a whole decimal is. -/
def Decimal.whole (decimal : Decimal) : Nat := decimal.digits * 10 ^ decimal.exponent.toNat

/-- The integer that a whole decimal is with a sign. -/
def Decimal.integer (decimal : Decimal) (negative : Bool) : Int :=
  if negative then -(decimal.whole : Int) else decimal.whole

namespace Binary

variable {value : Binary}

theorem IsShortest.digits_pos {tie : Tie} {decimal : Decimal} (nonzero : value.significand ≠ 0)
    (isShortest : value.IsShortest tie decimal) : 0 < decimal.digits := by
  rw [Nat.pos_iff_ne_zero]
  intro zero
  have covers := isShortest.covers
  rw [zero, Nat.cast_zero, zero_mul] at covers
  exact absurd covers.bounds.1 (not_le.mpr (lowQuarter_pos nonzero))

theorem magnitude_of_whole (nonzero : value.significand ≠ 0) (proper : value.IsProper)
    (large : 10 ^ 16 ≤ value.size) :
    Style.plain.magnitude value = natChars (value.shortest .upward).whole := by
  have isShortest := isShortest_shortest proper nonzero .upward
  have isWhole := exponent_nonneg proper nonzero isShortest large
  have positive := isShortest.digits_pos nonzero
  have tie : Style.plain.tie = .upward := rfl
  rw [Style.magnitude, if_neg nonzero, tie]
  generalize value.shortest .upward = decimal at *
  obtain ⟨digits, exponent⟩ := decimal
  obtain ⟨zeros, rfl⟩ := Int.eq_ofNat_of_zero_le isWhole
  exact positional_of_whole positive zeros

end Binary

/-- A large float is written as an integer in its decimal digits. -/
theorem plainText_of_whole {x : Float} {value : Binary} (isFinite : floatKind x = .finite value)
    (nonzero : value.significand ≠ 0) (large : 10 ^ 16 ≤ value.size) :
    plainText x = toString ((value.shortest .upward).integer value.negative) := by
  have proper := isProper_of_floatKind isFinite
  have isShortest := Binary.isShortest_shortest proper nonzero .upward
  have positive : 0 < (value.shortest .upward).whole :=
    Nat.mul_pos (isShortest.digits_pos nonzero) (Nat.pow_pos (by decide))
  rw [plainText, Style.write, isFinite]
  dsimp only
  rw [Binary.magnitude_of_whole nonzero proper large, ← String.toList_inj, String.toList_ofList,
    Decimal.integer]
  split
  · obtain ⟨less, isNext⟩ := Nat.exists_eq_succ_of_ne_zero positive.ne'
    rw [isNext]
    exact (toList_toString_negSucc less).symm
  · exact (toList_toString_ofNat _).symm

end OData.Number
