/-
# Floats taken apart

A float is taken apart by its bits, but calculated with as a number that is rounded and
packed into bits again. The two views agree. A number whose significand has all its bits
stays what it is when it is packed, or becomes infinite; and rounding, products and
packing keep a lower bound on the exponents of such numbers. So a whole number that is
large enough becomes a float that is whole as well.
-/

import OData.Number.Shortest
import Mathlib

namespace OData.Number

open Float.Model Float.Model.UnpackedFloat

/-! ## Bits -/

/-- The sign is a minus. -/
def isMinus : Sign → Bool
  | .negative => true
  | .positive => false

/-- What an unpacked float is. -/
def kindOf : UnpackedFloat → FloatKind
  | .notANumber => .undefined
  | .infinity sign => .infinite (isMinus sign)
  | .zero sign => .finite ⟨isMinus sign, 0, -1074⟩
  | .finite sign significand exponent _ => .finite ⟨isMinus sign, significand, exponent⟩

theorem toNat_unpackMantissa (bits : BitVec 64) :
    (@unpackMantissa Format.binary64 bits).toNat = bits.toNat % 0x10000000000000 := by
  simp [unpackMantissa, BitVec.extractLsb]

theorem toNat_unpackExponent (bits : BitVec 64) :
    (@unpackExponent Format.binary64 bits).toNat =
      bits.toNat / 0x10000000000000 % 0x800 := by
  simp [unpackExponent, BitVec.extractLsb, Nat.shiftRight_eq_div_pow]

theorem toNat_unpackSign (bits : BitVec 64) :
    (@unpackSign Format.binary64 bits).toNat = bits.toNat / 0x8000000000000000 := by
  have fits := bits.isLt
  simp [unpackSign, BitVec.extractLsb, Nat.shiftRight_eq_div_pow]
  omega

theorem isMinus_ofBitVec (bit : BitVec 1) : isMinus (Sign.ofBitVec bit) = (bit.toNat == 1) := by
  revert bit
  decide

/-- The implied bit stands before the others. -/
theorem toNat_one_append (fraction : BitVec 52) :
    (1#1 ++ fraction).toNat = 0x10000000000000 + fraction.toNat := by
  rw [BitVec.toNat_append, ← Nat.shiftLeft_add_eq_or_of_lt fraction.isLt]
  rfl

/-- Taken apart by its bits, a float is what it is unpacked. -/
theorem floatKind_eq_kindOf (x : Float) : floatKind x = kindOf x.toModel.unpack := by
  generalize isBits : x.toModel.toBits.toBitVec = bits
  have isNat : x.toBits.toNat = bits.toNat := by rw [← isBits]; rfl
  have isUnpacked : x.toModel.unpack = UnpackedFloat.unpack Format.binary64 bits := by
    rw [← isBits]
    rfl
  have bias : (Format.exponentBias Format.binary64 : Int) = 1023 := rfl
  have noFraction (fraction : BitVec 52) : fraction = 0#52 ↔ fraction.toNat = 0 := by
    rw [← BitVec.toNat_inj]
    rfl
  have isGreatest (field : BitVec 11) : field = -1#11 ↔ field.toNat = 2047 := by
    rw [← BitVec.toNat_inj]
    rfl
  have isLeast (field : BitVec 11) : field = 0#11 ↔ field.toNat = 0 := by
    rw [← BitVec.toNat_inj]
    rfl
  rw [isUnpacked, UnpackedFloat.unpack, floatKind, isNat, ← toNat_unpackMantissa,
    ← toNat_unpackExponent, ← toNat_unpackSign]
  dsimp only
  rw [← isMinus_ofBitVec]
  by_cases greatest : (@unpackExponent Format.binary64 bits).toNat = 2047
  · rw [if_pos greatest, if_pos ((isGreatest _).mpr greatest)]
    by_cases none : (@unpackMantissa Format.binary64 bits).toNat = 0
    · rw [if_pos none, if_pos ((noFraction _).mpr none)]
      rfl
    · rw [if_neg none, if_neg (mt (noFraction _).mp none)]
      rfl
  rw [if_neg greatest, if_neg (mt (isGreatest _).mp greatest)]
  by_cases least : (@unpackExponent Format.binary64 bits).toNat = 0
  · rw [if_pos least, if_pos ((isLeast _).mpr least)]
    by_cases none : (@unpackMantissa Format.binary64 bits).toNat = 0
    · rw [dif_pos ((noFraction _).mpr none), none]
      rfl
    · rw [dif_neg (mt (noFraction _).mp none)]
      simp only [kindOf, least, bias]
      rfl
  · rw [if_neg least, if_neg (mt (isLeast _).mp least)]
    simp only [kindOf, toNat_one_append, bias]
    rfl

/-- The integers of a value are those of a float: only with the least exponent the
significand may lack its first bit. -/
structure Binary.IsProper (value : Binary) : Prop where
  significand_lt : value.significand < 2 ^ 53
  exponent_ge : -1074 ≤ value.exponent
  exponent_le : value.exponent ≤ 971
  isFull : 2 ^ 52 ≤ value.significand ∨ value.exponent = -1074

theorem isProper_of_floatKind {x : Float} {value : Binary}
    (isFinite : floatKind x = .finite value) : value.IsProper := by
  unfold floatKind at isFinite
  dsimp only at isFinite
  split at isFinite
  · split at isFinite <;> cases isFinite
  · split at isFinite <;> cases isFinite
    · exact ⟨by dsimp only; omega, by dsimp only; omega, by dsimp only; omega, .inr rfl⟩
    · exact ⟨by dsimp only; omega, by dsimp only [Int.ofNat_eq_natCast]; omega,
        by dsimp only [Int.ofNat_eq_natCast]; omega, .inl (by dsimp only; omega)⟩

/-! ## Packing -/

theorem unpack_packComponents {sign : Sign} {field : BitVec 11} {fraction : BitVec 52}
    (notGreatest : field ≠ -1#11) (notLeast : field ≠ 0#11) :
    UnpackedFloat.unpack Format.binary64 (packComponents Format.binary64 sign field fraction) =
      .finite sign (1#1 ++ fraction).toNat (field.toNat - 1075)
        (by rw [toNat_one_append]; omega) := by
  rw [UnpackedFloat.unpack]
  simp only [unpackExponent_packComponents, unpackMantissa_packComponents,
    unpackSign_packComponents, Sign.ofBitVec_toBitVec]
  rw [if_neg notGreatest, if_neg notLeast]
  rfl

/-- A number with a full significand is packed as it is, or too large. -/
theorem unpack_pack {sign : Sign} {significand : Nat} {exponent : Int}
    (low : 2 ^ 52 ≤ significand) (high : significand < 2 ^ 53) (normal : -1074 ≤ exponent)
    (positive : 0 < significand) :
    (Float.Model.pack (.finite sign significand exponent positive)).unpack =
      if exponent ≤ 971 then .finite sign significand exponent positive else .infinity sign := by
  have bias : (Format.exponentBias Format.binary64 : Int) = 1023 := rfl
  have width : Format.binary64.mantissaBits = 53 := rfl
  have fraction : ((52 : Nat) : Int) = 52 := rfl
  have long : significand.log2 = 52 := (Nat.log2_eq_iff (by omega)).mpr ⟨low, high⟩
  change UnpackedFloat.unpack Format.binary64 (UnpackedFloat.pack Format.binary64 _) = _
  rw [UnpackedFloat.pack, bias, width, long]
  dsimp only
  by_cases fits : exponent ≤ 971
  · have field : (BitVec.ofNat 11 (exponent + 1023 + 52).toNat).toNat =
        (exponent + 1075).toNat := by
      rw [BitVec.toNat_ofNat]
      omega
    have notGreatest : BitVec.ofNat 11 (exponent + 1023 + 52).toNat ≠ -1#11 := by
      rw [Ne, ← BitVec.toNat_inj, field]
      change ¬ (exponent + 1075).toNat = 2047
      omega
    have notLeast : BitVec.ofNat 11 (exponent + 1023 + 52).toNat ≠ 0#11 := by
      rw [Ne, ← BitVec.toNat_inj, field]
      change ¬ (exponent + 1075).toNat = 0
      omega
    have whole : (1#1 ++ BitVec.ofNat 52 significand).toNat = significand := by
      rw [toNat_one_append, BitVec.toNat_ofNat]
      omega
    rw [if_neg (by omega), if_pos rfl, fraction, unpack_packComponents notGreatest notLeast,
      if_pos fits]
    simp only [whole, field]
    congr 1
    omega
  · rw [if_pos (by omega), if_neg fits]
    cases sign <;> rfl

/-! ## Rounding -/

theorem mantissa_shiftRight (extended : ExtendedMantissa) (count : Nat) :
    (extended >>> count).mantissa = extended.mantissa / 2 ^ count := by
  induction count with
  | zero => simp [HShiftRight.hShiftRight, Nat.repeat]
  | succ count ih =>
      change (extended >>> count).mantissa / 2 = _
      rw [ih, Nat.div_div_eq_div_mul, Nat.pow_succ]

theorem roundedMantissa_bounds (extended : ExtendedMantissa) :
    extended.mantissa ≤ extended.roundedMantissa ∧
      extended.roundedMantissa ≤ extended.mantissa + 1 := by
  obtain ⟨mantissa, roundBit, stickyBit⟩ := extended
  cases roundBit <;> cases stickyBit <;>
    simp only [ExtendedMantissa.roundedMantissa, ExtendedMantissa.accuracy,
      Accuracy.roundToNearestEven] <;>
    omega

section

variable {significand : Nat} {exponent : Int}

/-- A significand of 53 bits or more is cut to 53 of them. -/
theorem shiftToTargetExponent_of_long (long : 52 ≤ significand.log2)
    (normal : -1074 ≤ exponent + (significand.log2 - 52 : Nat)) :
    (shiftToTargetExponent Format.binary64 significand exponent .exact).1.mantissa =
        significand / 2 ^ (significand.log2 - 52) ∧
      (shiftToTargetExponent Format.binary64 significand exponent .exact).2 =
        exponent + (significand.log2 - 52 : Nat) := by
  have target : Format.binary64.targetExponent (totalExponent significand exponent) =
      exponent + (significand.log2 - 52 : Nat) := by
    have width : (Format.binary64.mantissaBits : Int) = 53 := rfl
    have least : Format.binary64.minExponent = -1074 := rfl
    rw [Format.targetExponent, totalExponent, width, least]
    omega
  have shift : (exponent + ((significand.log2 - 52 : Nat) : Int) - exponent).toNat =
      significand.log2 - 52 := by omega
  rw [shiftToTargetExponent, shiftToExponent, target]
  dsimp only
  rw [mantissa_shiftRight, shift]
  exact ⟨rfl, rfl⟩

theorem cut_bounds (long : 52 ≤ significand.log2) :
    2 ^ 52 ≤ significand / 2 ^ (significand.log2 - 52) ∧
      significand / 2 ^ (significand.log2 - 52) < 2 ^ 53 := by
  have some : significand ≠ 0 := by
    rintro rfl
    rw [Nat.log2_zero] at long
    omega
  have parts : 2 ^ significand.log2 = 2 ^ 52 * 2 ^ (significand.log2 - 52) := by
    rw [← Nat.pow_add, Nat.add_sub_cancel' long]
  constructor
  · rw [Nat.le_div_iff_mul_le (Nat.two_pow_pos _), ← parts]
    exact Nat.log2_self_le some
  · rw [Nat.div_lt_iff_lt_mul (Nat.two_pow_pos _), Nat.pow_succ, Nat.mul_right_comm, ← parts,
      ← Nat.pow_succ]
    exact Nat.lt_log2_self

/-- Rounding cuts twice: the second time when the first has carried over. -/
theorem exists_rounded (sign : Sign) (long : 52 ≤ significand.log2)
    (normal : -1074 ≤ exponent + (significand.log2 - 52 : Nat)) :
    ∃ rounded carry positive,
      roundWithAccuracy Format.binary64 sign significand exponent .exact =
          .finite sign rounded (exponent + (significand.log2 - 52 : Nat) + carry) positive ∧
        2 ^ 52 ≤ rounded ∧ rounded < 2 ^ 53 ∧ 0 ≤ carry ∧ carry ≤ 1 := by
  obtain ⟨isCut, isExponent⟩ := shiftToTargetExponent_of_long long normal
  obtain ⟨low, high⟩ := cut_bounds long
  rw [roundWithAccuracy]
  generalize shiftToTargetExponent Format.binary64 significand exponent .exact = first at *
  obtain ⟨extended, shifted⟩ := first
  dsimp only at *
  subst isExponent
  obtain ⟨notLess, notMore⟩ := roundedMantissa_bounds extended
  generalize extended.roundedMantissa = rounded at *
  have stillLong : 52 ≤ rounded.log2 := (Nat.le_log2 (by omega)).mpr (by omega)
  have notLonger : rounded.log2 < 54 := (Nat.log2_lt (by omega)).mpr (by omega)
  obtain ⟨isCutAgain, isFinal⟩ :=
    @shiftToTargetExponent_of_long rounded (exponent + (significand.log2 - 52 : Nat)) stillLong
      (by omega)
  obtain ⟨lowAgain, highAgain⟩ := cut_bounds stillLong
  rw [← isCutAgain] at lowAgain highAgain
  rw [dif_neg (by omega)]
  simp only [isFinal]
  refine ⟨_, (rounded.log2 - 52 : Nat), ?_, rfl, lowAgain, highAgain, by omega, by omega⟩
  exact Nat.lt_of_lt_of_le (Nat.two_pow_pos 52) lowAgain

end

/-- A whole number of more than 52 bits has an exponent that makes up for the others. -/
theorem exists_unpack_toFloat {whole more : Nat} (low : 2 ^ (52 + more) ≤ whole)
    (fits : whole < 2 ^ 64) :
    ∃ significand exponent positive,
      (UInt64.ofNat whole).toFloat.toModel.unpack =
          .finite .positive significand exponent positive ∧
        2 ^ 52 ≤ significand ∧ significand < 2 ^ 53 ∧ more ≤ exponent := by
  have some : whole ≠ 0 := fun none => absurd low (none ▸ Nat.not_le.mpr (Nat.two_pow_pos _))
  have long : 52 + more ≤ whole.log2 := (Nat.le_log2 some).mpr low
  have notLonger : whole.log2 < 64 := (Nat.log2_lt some).mpr fits
  have same : (UInt64.ofNat whole).toNat = whole := UInt64.toNat_ofNat_of_lt' fits
  have positive : compare (whole : Int) 0 = .gt := Int.compare_eq_gt.mpr (by omega)
  have width : (Format.binary64.mantissaBits : Int) = 53 := rfl
  have minimum : Format.binary64.minExponent = -1074 := rfl
  have noShift : (0 - Format.binary64.targetExponent (totalExponent whole 0)).toNat = 0 := by
    rw [Format.targetExponent, totalExponent, width, minimum]
    omega
  have isRound : UnpackedFloat.ofUInt64 Format.binary64 (UInt64.ofNat whole) =
      roundWithAccuracy Format.binary64 .positive whole 0 .exact := by
    change UnpackedFloat.normalize Format.binary64 ((UInt64.ofNat whole).toNat : Int) 0 _ = _
    rw [same, UnpackedFloat.normalize, positive]
    dsimp only
    rw [Int.toNat_natCast, UnpackedFloat.round, decreaseExponent, noShift]
    rfl
  obtain ⟨rounded, carry, some, isRounded, low, high, notNegative, small⟩ :=
    @exists_rounded whole 0 .positive (by omega) (by omega)
  change ∃ significand exponent positive,
    (Float.Model.pack (UnpackedFloat.ofUInt64 Format.binary64 (UInt64.ofNat whole))).unpack =
      .finite .positive significand exponent positive ∧ _
  rw [isRound, isRounded, unpack_pack low high (by omega), if_pos (by omega)]
  exact ⟨_, _, _, rfl, low, high, by omega⟩

/-! ## Large numbers -/

/-- The number is positive, its significand is full, and its exponent has a lower bound;
or it is positive and infinite. -/
def IsAtLeast (least : Int) : UnpackedFloat → Prop
  | .finite .positive significand exponent _ =>
      2 ^ 52 ≤ significand ∧ significand < 2 ^ 53 ∧ least ≤ exponent
  | .infinity .positive => True
  | _ => False

instance (least : Int) : (number : UnpackedFloat) → Decidable (IsAtLeast least number)
  | .finite .positive _ _ _ => inferInstanceAs (Decidable (_ ∧ _))
  | .infinity .positive => isTrue trivial
  | .finite .negative _ _ _ | .infinity .negative | .zero _ | .notANumber => isFalse id

namespace IsAtLeast

variable {least : Int} {number : UnpackedFloat}

protected theorem cases (isAtLeast : IsAtLeast least number) :
    number = .infinity .positive ∨ ∃ significand exponent positive,
      number = .finite .positive significand exponent positive ∧
        2 ^ 52 ≤ significand ∧ significand < 2 ^ 53 ∧ least ≤ exponent := by
  unfold IsAtLeast at isAtLeast
  split at isAtLeast
  · exact .inr ⟨_, _, _, rfl, isAtLeast⟩
  · exact .inl rfl
  · exact isAtLeast.elim

theorem unpack_pack (isAtLeast : IsAtLeast least number) (normal : -1074 ≤ least) :
    IsAtLeast least (Float.Model.pack number).unpack := by
  obtain rfl | ⟨significand, exponent, positive, rfl, low, high, isLeast⟩ := isAtLeast.cases
  · trivial
  · rw [Number.unpack_pack low high (Int.le_trans normal isLeast)]
    split
    · exact ⟨low, high, isLeast⟩
    · trivial

theorem roundWithAccuracy {significand : Nat} {exponent : Int} (long : 52 ≤ significand.log2)
    (isLeast : least ≤ exponent + (significand.log2 - 52 : Nat)) (normal : -1074 ≤ least) :
    IsAtLeast least
      (UnpackedFloat.roundWithAccuracy Format.binary64 .positive significand exponent
        .exact) := by
  obtain ⟨rounded, carry, positive, isRounded, low, high, notNegative, -⟩ :=
    exists_rounded .positive long (Int.le_trans normal isLeast)
  rw [isRounded]
  exact ⟨low, high, by omega⟩

/-- A product has a full significand of its own, which the two significands make twice
as long. -/
theorem mul {other : Int} {factor : UnpackedFloat} (isAtLeast : IsAtLeast least number)
    (isOther : IsAtLeast other factor) (normal : -1074 ≤ least + other + 52) :
    IsAtLeast (least + other + 52) (UnpackedFloat.mul Format.binary64 number factor) := by
  obtain rfl | ⟨first, exponent, _, rfl, low, -, isLeast⟩ := isAtLeast.cases <;>
    obtain rfl | ⟨second, scale, _, rfl, lowOther, -, isLeastOther⟩ := isOther.cases
  case inr.inr =>
    have long : 104 ≤ (first * second).log2 := by
      rw [Nat.le_log2 (Nat.mul_ne_zero (by omega) (by omega))]
      calc 2 ^ 104 = 2 ^ 52 * 2 ^ 52 := rfl
        _ ≤ first * second := Nat.mul_le_mul low lowOther
    exact roundWithAccuracy (by omega) (by omega) normal
  all_goals trivial

/-- A product of floats is the product of the numbers, packed. -/
theorem mul_float {other : Int} {x y : Float} (isAtLeast : IsAtLeast least x.toModel.unpack)
    (isOther : IsAtLeast other y.toModel.unpack) (normal : -1074 ≤ least + other + 52) :
    IsAtLeast (least + other + 52) (x * y).toModel.unpack :=
  (isAtLeast.mul isOther normal).unpack_pack normal

theorem ofScientific (n : Nat) :
    IsAtLeast (-52) (UnpackedFloat.ofScientific Format.binary64 1 n) := by
  have long : 53 ≤ (1 <<< 53 * 10 ^ n).log2 := by
    have some : 0 < 10 ^ n := Nat.pow_pos (by decide)
    rw [Nat.le_log2 (by omega)]
    exact Nat.le_mul_of_pos_right _ some
  have notSmall : ¬ (n : Int) < -(2 ^ 11 + (Nat.log2 1 : Nat)) := by omega
  rw [UnpackedFloat.ofScientific, dif_neg (by decide)]
  by_cases large : (n : Int) > 2 ^ Format.binary64.exponentBits
  · rw [if_pos large]
    trivial
  · rw [if_neg large, if_neg notSmall, if_pos (Int.natCast_nonneg n)]
    apply roundWithAccuracy _ _ (by decide)
    · change 52 ≤ (1 <<< 53 * 10 ^ n).log2
      omega
    · change (-52 : Int) ≤ -53 + 0 + ((1 <<< 53 * 10 ^ n).log2 - 52 : Nat)
      omega

/-- Powers of ten are at least one; the first of them come from a table. -/
theorem powerOfTen (n : Nat) :
    IsAtLeast (-52) (Float.ofScientific 1 false n).toModel.unpack := by
  by_cases small : n < 23
  · revert n
    decide +kernel
  · rw [Float.ofScientific, dif_neg (by omega)]
    exact (ofScientific n).unpack_pack (by decide)

/-- What is finite among large numbers is positive and has a full significand. -/
theorem exists_value {x : Float} (isAtLeast : IsAtLeast least x.toModel.unpack)
    (isFinite : isFinite x = true) :
    ∃ significand exponent, floatKind x = .finite ⟨false, significand, exponent⟩ ∧
      2 ^ 52 ≤ significand ∧ least ≤ exponent := by
  have kind := floatKind_eq_kindOf x
  obtain isInfinite | ⟨significand, exponent, positive, isNumber, low, -, isLeast⟩ :=
    isAtLeast.cases
  · rw [isInfinite, kindOf] at kind
    rw [Number.isFinite, kind] at isFinite
    cases isFinite
  · rw [isNumber, kindOf] at kind
    exact ⟨significand, exponent, kind, low, isLeast⟩

end IsAtLeast

/-- The negative of a number with a full significand. -/
theorem floatKind_neg {x : Float} {significand : Nat} {exponent : Int}
    (isFinite : floatKind x = .finite ⟨false, significand, exponent⟩)
    (low : 2 ^ 52 ≤ significand) :
    floatKind (-x) = .finite ⟨true, significand, exponent⟩ := by
  obtain ⟨high, normal, fits, -⟩ := isProper_of_floatKind isFinite
  rw [floatKind_eq_kindOf] at isFinite ⊢
  change kindOf (Float.Model.pack x.toModel.unpack.neg).unpack = _
  generalize x.toModel.unpack = number at isFinite
  cases number with
  | finite sign _ _ positive =>
      rw [kindOf] at isFinite
      cases sign <;> cases isFinite
      rw [UnpackedFloat.neg, unpack_pack low high normal, if_pos fits]
      rfl
  | zero sign =>
      rw [kindOf] at isFinite
      cases sign <;> cases isFinite
      exact absurd low (by decide)
  | infinity sign => cases isFinite
  | notANumber => cases isFinite

end OData.Number
