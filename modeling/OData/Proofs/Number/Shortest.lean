/-
# The shortest decimal

The reals that round to a value form an interval around it. The search goes through the
powers of ten from above the whole interval downwards, and looks at the two multiples next
to the value only. What it finds is the shortest decimal: of the multiples that lie in the
interval the nearest one, on the highest grid that has any. It is found before the search
gives up, because a grid fine enough for seventeen digits has a multiple in the interval;
for the same reason it never has more digits than that.
-/

import OData.Number.Shortest
import OData.Proofs.Number.Binary
import Mathlib.Algebra.Order.Field.Power
import Mathlib.Data.Int.Log
import Mathlib.Data.Rat.Floor
import Mathlib.Tactic.GCongr
import Mathlib.Tactic.Linarith
import Mathlib.Tactic.Positivity
import Mathlib.Tactic.Ring

namespace OData.Number

/-! ## Powers of two and of ten -/

theorem zpow_mul_toNat {base : ℚ} (nonzero : base ≠ 0) (exponent : Int) :
    base ^ exponent * base ^ (-exponent).toNat = base ^ exponent.toNat := by
  rw [← zpow_natCast, ← zpow_natCast, ← zpow_add₀ nonzero]
  congr 1
  omega

theorem zpow_le_zpow_of_base {a b : ℚ} (ha : 1 ≤ a) (hb : 1 ≤ b) {m n : Nat} (nonzero : m ≠ 0)
    (base : a ^ m ≤ b ^ n) {x y : Int} (notNegative : 0 ≤ y) (isLess : n * x ≤ m * y) :
    a ^ x ≤ b ^ y := by
  rcases le_total x 0 with isNegative | isPositive
  · exact (zpow_le_one_of_nonpos₀ ha isNegative).trans (one_le_zpow₀ hb notNegative)
  have power : (a ^ x) ^ m ≤ (b ^ y) ^ m := by
    calc (a ^ x) ^ m = (a ^ m) ^ x := by
          rw [← zpow_natCast, ← zpow_natCast, ← zpow_mul, ← zpow_mul, mul_comm]
      _ ≤ (b ^ n) ^ x := zpow_le_zpow_left₀ isPositive (by positivity) base
      _ = b ^ (n * x) := by rw [← zpow_natCast, ← zpow_mul]
      _ ≤ b ^ (m * y) := zpow_le_zpow_right₀ hb isLess
      _ = (b ^ y) ^ m := by rw [← zpow_natCast, ← zpow_mul, mul_comm]
  exact (pow_le_pow_iff_left₀ (by positivity) (by positivity) nonzero).mp power

/-- The bases are as near to each other as all exponents of floats need it: `2 ^ 93` is below
`10 ^ 28`, and `2 ^ 196` is above `10 ^ 59`. -/
theorem two_zpow_le_ten_zpow {exponent grid : Int} (isLess : 28 * exponent ≤ 93 * grid)
    (isLessToo : 59 * exponent ≤ 196 * grid) : (2 : ℚ) ^ exponent ≤ 10 ^ grid := by
  rcases le_total 0 grid with notNegative | isNegative
  · exact zpow_le_zpow_of_base (m := 93) (n := 28) (by norm_num) (by norm_num) (by decide)
      (by norm_num) notNegative isLess
  · have inverse : (10 : ℚ) ^ (-grid) ≤ 2 ^ (-exponent) :=
      zpow_le_zpow_of_base (m := 59) (n := 196) (by norm_num) (by norm_num) (by decide)
        (by norm_num) (by omega) (by omega)
    rwa [zpow_neg, zpow_neg, inv_le_inv₀ (by positivity) (by positivity)] at inverse

theorem ten_zpow_le_two_zpow {exponent grid : Int} (isLess : 196 * grid ≤ 59 * exponent)
    (isLessToo : 93 * grid ≤ 28 * exponent) : (10 : ℚ) ^ grid ≤ 2 ^ exponent := by
  have inverse : (2 : ℚ) ^ (-exponent) ≤ 10 ^ (-grid) :=
    two_zpow_le_ten_zpow (by omega) (by omega)
  rwa [zpow_neg, zpow_neg, inv_le_inv₀ (by positivity) (by positivity)] at inverse

/-! ## Intervals -/

/-- Which of two equally near multiples is taken. -/
def Tie.Prefers : Tie → (taken other : Nat) → Prop
  | .toEven, taken, other => taken % 2 = 0 ∧ other % 2 = 1
  | .upward, taken, other => other < taken

namespace Binary

/-- A number of quarter units in the last place of a value. -/
def quarters (value : Binary) (count : Nat) : ℚ := count * 2 ^ (value.exponent - 2)

/-- The number that a value stands for, without its sign. -/
def size (value : Binary) : ℚ := value.significand * 2 ^ value.exponent

/-- The number lies in the interval that rounds to the value; the ends do exactly when the
significand is even. -/
def Covers (value : Binary) (number : ℚ) : Prop :=
  if value.significand % 2 = 0 then
    value.quarters value.lowQuarter ≤ number ∧ number ≤ value.quarters value.highQuarter
  else value.quarters value.lowQuarter < number ∧ number < value.quarters value.highQuarter

variable {value : Binary}

theorem size_eq_quarters (value : Binary) :
    value.size = value.quarters (4 * value.significand) := by
  rw [size, quarters, zpow_sub₀ (by norm_num)]
  push_cast
  ring

theorem quarters_lt (value : Binary) {few many : Nat} :
    value.quarters few < value.quarters many ↔ few < many := by
  rw [quarters, quarters, mul_lt_mul_iff_of_pos_right (by positivity), Nat.cast_lt]

/-- Quarter units and multiples of a power of ten have a common denominator. -/
theorem exists_scale (value : Binary) (grid : Int) :
    ∃ scale : ℚ, 0 < scale ∧ (value.gridUnit grid : ℚ) = 10 ^ grid * scale ∧
      ∀ count, (value.onGrid grid count : ℚ) = value.quarters count * scale := by
  refine ⟨2 ^ (2 - value.exponent).toNat * 10 ^ (-grid).toNat, by positivity, ?_, fun count => ?_⟩
  · rw [gridUnit, Nat.pow_eq, Nat.pow_eq]
    push_cast
    rw [← zpow_mul_toNat (by norm_num : (10 : ℚ) ≠ 0) grid]
    ring
  · have power := zpow_mul_toNat (by norm_num : (2 : ℚ) ≠ 0) (value.exponent - 2)
    rw [Int.neg_sub] at power
    rw [onGrid, quarters, Nat.pow_eq, Nat.pow_eq]
    push_cast
    rw [← power]
    ring

theorem readsBack_iff {grid : Int} {count : Nat} :
    value.readsBack grid count = true ↔ value.Covers (count * 10 ^ grid) := by
  obtain ⟨scale, positive, isUnit, isQuarter⟩ := value.exists_scale grid
  have position : ((count * value.gridUnit grid : Nat) : ℚ) = count * 10 ^ grid * scale := by
    rw [Nat.cast_mul, isUnit, mul_assoc]
  have notLess (quarter : Nat) : value.onGrid grid quarter ≤ count * value.gridUnit grid ↔
      value.quarters quarter ≤ count * 10 ^ grid := by
    rw [← mul_le_mul_iff_of_pos_right positive, ← isQuarter, ← position, Nat.cast_le]
  have notMore (quarter : Nat) : count * value.gridUnit grid ≤ value.onGrid grid quarter ↔
      count * 10 ^ grid ≤ value.quarters quarter := by
    rw [← mul_le_mul_iff_of_pos_right positive, ← isQuarter, ← position, Nat.cast_le]
  rw [readsBack, Covers]
  split <;> rw [Bool.and_eq_true, decide_eq_true_iff, decide_eq_true_iff]
  · rw [notLess, notMore]
  · rw [← not_le, ← not_le, notMore, notLess, not_le, not_le]

theorem Covers.mid {low mid high : ℚ} (isLow : value.Covers low) (isHigh : value.Covers high)
    (notLess : low ≤ mid) (notMore : mid ≤ high) : value.Covers mid := by
  unfold Covers at *
  split <;> rename_i parity
  · rw [if_pos parity] at isLow isHigh
    exact ⟨isLow.1.trans notLess, notMore.trans isHigh.2⟩
  · rw [if_neg parity] at isLow isHigh
    exact ⟨isLow.1.trans_le notLess, notMore.trans_lt isHigh.2⟩

theorem covers_of_between {number : ℚ} (low : value.quarters value.lowQuarter < number)
    (high : number < value.quarters value.highQuarter) : value.Covers number := by
  unfold Covers
  split
  · exact ⟨low.le, high.le⟩
  · exact ⟨low, high⟩

theorem Covers.bounds {number : ℚ} (covers : value.Covers number) :
    value.quarters value.lowQuarter ≤ number ∧ number ≤ value.quarters value.highQuarter := by
  unfold Covers at covers
  split at covers
  · exact covers
  · exact ⟨covers.1.le, covers.2.le⟩

theorem covers_size (nonzero : value.significand ≠ 0) : value.Covers value.size := by
  rw [size_eq_quarters]
  apply covers_of_between <;> rw [quarters_lt]
  · unfold lowQuarter
    split <;> omega
  · unfold highQuarter
    omega

/-! ## One grid -/

/-- How far a multiple of a power of ten is from the value. -/
def distance (value : Binary) (grid : Int) (count : Nat) : ℚ :=
  |count * 10 ^ grid - value.size|

/-- The multiple of a power of ten rounds to the value, and is the nearest that does. -/
structure IsNearest (tie : Tie) (value : Binary) (grid : Int) (count : Nat) : Prop where
  covers : value.Covers (count * 10 ^ grid)
  nearest (other : Nat) : value.Covers (other * 10 ^ grid) →
    value.distance grid count ≤ value.distance grid other
  tied (other : Nat) : value.Covers (other * 10 ^ grid) →
    value.distance grid other = value.distance grid count → other ≠ count →
      tie.Prefers count other

section Neighbours

variable {tie : Tie} {grid : Int} {below : Nat} (notMore : below * 10 ^ grid ≤ value.size)
  (isLess : value.size < (below + 1 : Nat) * 10 ^ grid)

include notMore in
theorem distance_of_le {other : Nat} (isBelow : other ≤ below) :
    value.distance grid other =
      value.size - below * 10 ^ grid + ((below - other : Nat) : ℚ) * 10 ^ grid := by
  have smaller : (other : ℚ) * 10 ^ grid ≤ below * 10 ^ grid := by gcongr
  rw [distance, abs_of_nonpos (by linarith), Nat.cast_sub isBelow]
  ring

include isLess in
theorem distance_of_gt {other : Nat} (isAbove : below + 1 ≤ other) :
    value.distance grid other =
      (below + 1 : Nat) * 10 ^ grid - value.size +
        ((other - (below + 1) : Nat) : ℚ) * 10 ^ grid := by
  have larger : ((below + 1 : Nat) : ℚ) * 10 ^ grid ≤ other * 10 ^ grid := by gcongr
  rw [distance, abs_of_nonneg (by linarith), Nat.cast_sub isAbove]
  ring

include notMore isLess

/-- Of the two neighbours of the value, the one on the same side is at least as near as any
multiple that rounds to the value, and rounds to it too. -/
theorem exists_neighbour (nonzero : value.significand ≠ 0) {other : Nat}
    (covers : value.Covers (other * 10 ^ grid)) :
    ∃ neighbour, (neighbour = below ∨ neighbour = below + 1) ∧
      value.Covers (neighbour * 10 ^ grid) ∧
      value.distance grid neighbour ≤ value.distance grid other ∧
      (value.distance grid other = value.distance grid neighbour → other = neighbour) := by
  have unit : (0 : ℚ) < 10 ^ grid := by positivity
  rcases Nat.lt_or_ge below other with isAbove | isBelow
  · refine ⟨below + 1, .inr rfl, ?_, ?_⟩
    · exact (covers_size nonzero).mid covers isLess.le (by gcongr; omega)
    have far : (0 : ℚ) ≤ ((other - (below + 1) : Nat) : ℚ) * 10 ^ grid := by positivity
    rw [distance_of_gt isLess isAbove, distance_of_gt isLess (le_refl _), Nat.sub_self,
      Nat.cast_zero, zero_mul, add_zero]
    refine ⟨by linarith, fun same => ?_⟩
    rw [add_eq_left, mul_eq_zero, or_iff_left unit.ne', Nat.cast_eq_zero] at same
    omega
  · refine ⟨below, .inl rfl, covers.mid (covers_size nonzero) (by gcongr) notMore, ?_⟩
    have far : (0 : ℚ) ≤ ((below - other : Nat) : ℚ) * 10 ^ grid := by positivity
    rw [distance_of_le notMore isBelow, distance_of_le notMore (le_refl _), Nat.sub_self,
      Nat.cast_zero, zero_mul, add_zero]
    refine ⟨by linarith, fun same => ?_⟩
    rw [add_eq_left, mul_eq_zero, or_iff_left unit.ne', Nat.cast_eq_zero] at same
    omega

theorem isNearest_of_neighbours (nonzero : value.significand ≠ 0) {taken : Nat}
    (covers : value.Covers (taken * 10 ^ grid))
    (nearer : ∀ neighbour, neighbour = below ∨ neighbour = below + 1 →
      value.Covers (neighbour * 10 ^ grid) → neighbour ≠ taken →
        value.distance grid taken < value.distance grid neighbour ∨
          value.distance grid taken = value.distance grid neighbour ∧
            tie.Prefers taken neighbour) :
    IsNearest tie value grid taken := by
  refine ⟨covers, fun other isOther => ?_, fun other isOther same different => ?_⟩
  · obtain ⟨neighbour, isNeighbour, isCovered, near, -⟩ :=
      exists_neighbour notMore isLess nonzero isOther
    refine le_trans ?_ near
    by_cases isTaken : neighbour = taken
    · rw [isTaken]
    · rcases nearer neighbour isNeighbour isCovered isTaken with less | ⟨equal, -⟩
      · exact less.le
      · exact equal.le
  · obtain ⟨neighbour, isNeighbour, isCovered, near, unique⟩ :=
      exists_neighbour notMore isLess nonzero isOther
    rw [same] at near unique
    have notTaken : neighbour ≠ taken := by
      rintro rfl
      exact different (unique rfl)
    rcases nearer neighbour isNeighbour isCovered notTaken with less | ⟨equal, prefers⟩
    · exact absurd near less.not_ge
    · rw [unique equal]
      exact prefers

theorem isNearest_below (nonzero : value.significand ≠ 0)
    (covers : value.Covers (below * 10 ^ grid))
    (closer : value.Covers ((below + 1 : Nat) * 10 ^ grid) →
      value.distance grid below < value.distance grid (below + 1) ∨
        value.distance grid below = value.distance grid (below + 1) ∧
          tie.Prefers below (below + 1)) :
    IsNearest tie value grid below := by
  apply isNearest_of_neighbours notMore isLess nonzero covers
  rintro neighbour (rfl | rfl) isCovered different
  · exact absurd rfl different
  · exact closer isCovered

theorem isNearest_above (nonzero : value.significand ≠ 0)
    (covers : value.Covers ((below + 1 : Nat) * 10 ^ grid))
    (closer : value.Covers (below * 10 ^ grid) →
      value.distance grid (below + 1) < value.distance grid below ∨
        value.distance grid (below + 1) = value.distance grid below ∧
          tie.Prefers (below + 1) below) :
    IsNearest tie value grid (below + 1) := by
  apply isNearest_of_neighbours notMore isLess nonzero covers
  rintro neighbour (rfl | rfl) isCovered different
  · exact closer isCovered
  · exact absurd rfl different

end Neighbours

/-- The value stands between the two neighbours that are looked at, and the rest of the
division tells which of them is nearer. -/
theorem neighbours_of_division (value : Binary) (grid : Int) :
    let below := value.onGrid grid (4 * value.significand) / value.gridUnit grid
    let rest := value.onGrid grid (4 * value.significand) % value.gridUnit grid
    below * 10 ^ grid ≤ value.size ∧ value.size < (below + 1 : Nat) * 10 ^ grid ∧
      (2 * rest < value.gridUnit grid ↔
        value.distance grid below < value.distance grid (below + 1)) ∧
      (value.gridUnit grid < 2 * rest ↔
        value.distance grid (below + 1) < value.distance grid below) := by
  intro below rest
  obtain ⟨scale, positive, isUnit, isQuarter⟩ := value.exists_scale grid
  have nonzero : 0 < value.gridUnit grid := by
    rw [← Nat.cast_pos (α := ℚ), isUnit]
    positivity
  have parts : value.gridUnit grid * below + rest = value.onGrid grid (4 * value.significand) :=
    Nat.div_add_mod _ _
  have isRest : (rest : ℚ) = (value.size - below * 10 ^ grid) * scale := by
    have cast := congrArg (Nat.cast (R := ℚ)) parts
    rw [isQuarter, ← size_eq_quarters, Nat.cast_add, Nat.cast_mul, isUnit] at cast
    linarith
  have notNegative : (0 : ℚ) ≤ rest := rest.cast_nonneg
  have isSmaller : (rest : ℚ) < value.gridUnit grid :=
    Nat.cast_lt.mpr (Nat.mod_lt _ nonzero)
  rw [isRest] at notNegative
  rw [isRest, isUnit, mul_lt_mul_iff_of_pos_right positive] at isSmaller
  have notMore : below * 10 ^ grid ≤ value.size := by
    linarith [nonneg_of_mul_nonneg_left notNegative positive]
  have isLess : value.size < (below + 1 : Nat) * 10 ^ grid := by
    rw [Nat.cast_add, Nat.cast_one]
    linarith
  refine ⟨notMore, isLess, ?_⟩
  rw [distance_of_le notMore (le_refl _), distance_of_gt isLess (le_refl _), Nat.sub_self,
    Nat.sub_self, ← Nat.cast_lt (α := ℚ), ← Nat.cast_lt (α := ℚ), Nat.cast_mul, isRest, isUnit,
    ← mul_assoc, mul_lt_mul_iff_of_pos_right positive, mul_lt_mul_iff_of_pos_right positive]
  push_cast
  constructor <;> constructor <;> intro _ <;> linarith

theorem nearestOnGrid?_spec (tie : Tie) (nonzero : value.significand ≠ 0) (grid : Int) :
    match value.nearestOnGrid? tie grid with
    | none => ∀ count : Nat, ¬ value.Covers (count * 10 ^ grid)
    | some count => IsNearest tie value grid count := by
  obtain ⟨notMore, isLess, nearBelow, nearAbove⟩ := value.neighbours_of_division grid
  generalize isFound : value.nearestOnGrid? tie grid = found
  unfold nearestOnGrid? at isFound
  dsimp only at isFound
  generalize value.onGrid grid (4 * value.significand) / value.gridUnit grid = below at *
  generalize value.onGrid grid (4 * value.significand) % value.gridUnit grid = rest at *
  have coversBelow := @readsBack_iff value grid below
  have coversAbove := @readsBack_iff value grid (below + 1)
  split at isFound <;> rename_i isBelow isAbove <;> rw [isBelow] at coversBelow <;>
    rw [isAbove] at coversAbove
  · subst isFound
    intro count covers
    obtain ⟨neighbour, rfl | rfl, isCovered, -⟩ := exists_neighbour notMore isLess nonzero covers
    · exact absurd (coversBelow.mpr isCovered) (by decide)
    · exact absurd (coversAbove.mpr isCovered) (by decide)
  · subst isFound
    exact isNearest_below notMore isLess nonzero (coversBelow.mp rfl) fun isCovered =>
      absurd (coversAbove.mpr isCovered) (by decide)
  · subst isFound
    exact isNearest_above notMore isLess nonzero (coversAbove.mp rfl) fun isCovered =>
      absurd (coversBelow.mpr isCovered) (by decide)
  -- Both neighbours round to the value: the nearer one is taken, or the tie is broken.
  have below := @isNearest_below value tie grid below notMore isLess nonzero (coversBelow.mp rfl)
  have above := @isNearest_above value tie grid _ notMore isLess nonzero (coversAbove.mp rfl)
  split at isFound
  · rename_i isNear
    subst isFound
    exact below fun _ => .inl (nearBelow.mp isNear)
  rename_i notBelow
  split at isFound
  · rename_i isNear
    subst isFound
    exact above fun _ => .inl (nearAbove.mp isNear)
  rename_i notAbove
  have equal := le_antisymm (not_lt.mp (mt nearAbove.mpr notAbove))
    (not_lt.mp (mt nearBelow.mpr notBelow))
  cases tie with
  | upward =>
      subst isFound
      exact above fun _ => .inr ⟨equal.symm, Nat.lt_succ_self _⟩
  | toEven =>
      dsimp only at isFound
      split at isFound <;> subst isFound
      · exact below fun _ => .inr ⟨equal, by assumption, by omega⟩
      · exact above fun _ => .inr ⟨equal.symm, by omega, by omega⟩

/-! ## The search -/

/-- The shortest decimal of a value: the nearest one on the highest grid that has any. -/
structure IsShortest (tie : Tie) (value : Binary) (decimal : Decimal) : Prop
    extends IsNearest tie value decimal.exponent decimal.digits where
  fewest (grid : Int) : decimal.exponent < grid →
    ∀ count : Nat, ¬ value.Covers (count * 10 ^ grid)

/-- The search stops at the first grid that has a multiple rounding to the value. -/
theorem isShortest_searchGrids (tie : Tie) (nonzero : value.significand ≠ 0) {tries : Nat}
    {grid least : Int} {some : Nat} (above : ∀ higher, grid < higher →
      ∀ count : Nat, ¬ value.Covers (count * 10 ^ higher))
    (notMore : least ≤ grid) (isReached : grid < least + tries)
    (covers : value.Covers (some * 10 ^ least)) :
    value.IsShortest tie (value.searchGrids tie tries grid) := by
  induction tries generalizing grid with
  | zero => omega
  | succ tries ih =>
      have spec := nearestOnGrid?_spec tie nonzero grid
      rw [searchGrids]
      split <;> rename_i isFound <;> rw [isFound] at spec
      · exact ⟨spec, above⟩
      · have notLeast : least ≠ grid := by
          rintro rfl
          exact spec some covers
        refine ih (fun higher isHigher => ?_) (by omega) (by omega)
        rcases eq_or_lt_of_le (Int.sub_one_lt_iff.mp isHigher) with rfl | isAbove
        · exact spec
        · exact above higher isAbove

variable (proper : value.IsProper) (nonzero : value.significand ≠ 0)

include nonzero in
theorem two_zpow_le_size : (2 : ℚ) ^ (value.exponent + value.significand.log2) ≤ value.size := by
  rw [size, zpow_add₀ (by norm_num), mul_comm, zpow_natCast]
  gcongr
  exact_mod_cast Nat.log2_self_le nonzero

theorem highQuarter_lt : value.quarters value.highQuarter <
    2 ^ (value.exponent + value.significand.log2 + 1) := by
  have isLess : value.significand + 1 ≤ 2 ^ (value.significand.log2 + 1) := Nat.lt_log2_self
  have quarter : (value.highQuarter : ℚ) < 4 * 2 ^ (value.significand.log2 + 1) := by
    have := (Nat.cast_le (α := ℚ)).mpr isLess
    rw [highQuarter]
    push_cast at *
    linarith
  have parts : (2 : ℚ) ^ (value.exponent + value.significand.log2 + 1) =
      4 * 2 ^ (value.significand.log2 + 1) * 2 ^ (value.exponent - 2) := by
    rw [← zpow_natCast, show (4 : ℚ) = 2 ^ (2 : Int) by norm_num, ← zpow_add₀ (by norm_num),
      ← zpow_add₀ (by norm_num)]
    congr 1
    push_cast
    ring
  rw [quarters, parts]
  gcongr

theorem lowQuarter_pos (nonzero : value.significand ≠ 0) :
    0 < value.quarters value.lowQuarter := by
  have some : 0 < value.lowQuarter := by
    unfold lowQuarter
    split <;> omega
  rw [quarters]
  positivity

include proper nonzero in
theorem log_bounds : -1074 ≤ value.exponent + value.significand.log2 ∧
    value.exponent + value.significand.log2 ≤ 1023 := by
  have fits : value.significand.log2 < 53 := (Nat.log2_lt nonzero).mpr proper.significand_lt
  have := proper.exponent_ge
  have := proper.exponent_le
  omega

include proper nonzero in
/-- Where the search starts is above the whole interval. -/
theorem not_covers_of_startGrid_le {grid : Int} (isAbove : value.startGrid ≤ grid) (count : Nat) :
    ¬ value.Covers (count * 10 ^ grid) := by
  intro covers
  obtain ⟨low, high⟩ := covers.bounds
  have bounds := log_bounds proper nonzero
  have positive : (0 : ℚ) < count * 10 ^ grid := (lowQuarter_pos nonzero).trans_le low
  have some : 1 ≤ (count : ℚ) := by
    have : count ≠ 0 := by
      rintro rfl
      simp at positive
    exact_mod_cast Nat.one_le_iff_ne_zero.mpr this
  have start : (2 : ℚ) ^ (value.exponent + value.significand.log2 + 1) ≤ 10 ^ grid := by
    unfold startGrid at isAbove
    exact two_zpow_le_ten_zpow (by omega) (by omega)
  have large : (10 : ℚ) ^ grid ≤ count * 10 ^ grid := le_mul_of_one_le_left (by positivity) some
  linarith [@highQuarter_lt value]

include proper in
theorem size_le : value.size ≤ 2 ^ 55 * 2 ^ (value.exponent - 2) := by
  have isLess : (value.significand : ℚ) ≤ 2 ^ 53 := by exact_mod_cast proper.significand_lt.le
  rw [size_eq_quarters, quarters]
  push_cast
  gcongr
  linarith

section Fine

variable {grid : Int} (fine : 10 ^ grid * 10 ^ 16 ≤ value.size)

include proper fine

theorem lt_highQuarter_of_fine :
    value.size + 10 ^ grid / 2 < value.quarters value.highQuarter := by
  have isSize := value.size_eq_quarters
  have bound := size_le proper
  have unit : (0 : ℚ) < 2 ^ (value.exponent - 2) := by positivity
  rw [quarters] at isSize
  rw [quarters, highQuarter]
  push_cast at *
  linarith

include nonzero

theorem lowQuarter_lt_of_fine :
    value.quarters value.lowQuarter < value.size - 10 ^ grid / 2 := by
  have isSize := value.size_eq_quarters
  have bound := size_le proper
  have unit : (0 : ℚ) < 2 ^ (value.exponent - 2) := by positivity
  rw [quarters] at isSize ⊢
  rw [lowQuarter]
  split
  · rename_i isPower
    rw [isPower.1] at isSize ⊢
    norm_num at isSize ⊢
    linarith
  · rw [Nat.cast_sub (by omega)]
    push_cast at *
    linarith

/-- A grid that is fine enough for seventeen digits has a multiple that rounds to the value:
the nearer of the two neighbours is closer than the ends of the interval. -/
theorem exists_covers_of_fine : ∃ count : Nat, value.Covers (count * 10 ^ grid) := by
  obtain ⟨notMore, isLess, -⟩ := value.neighbours_of_division grid
  generalize value.onGrid grid (4 * value.significand) / value.gridUnit grid = below at *
  have lowEnd := lowQuarter_lt_of_fine proper nonzero fine
  have highEnd := lt_highQuarter_of_fine proper fine
  push_cast at isLess
  rcases le_total (value.size - below * 10 ^ grid) (10 ^ grid / 2) with near | far
  · exact ⟨below, covers_of_between (by linarith) (by linarith)⟩
  · refine ⟨below + 1, covers_of_between ?_ ?_⟩ <;> push_cast <;> linarith

end Fine

include nonzero in
theorem size_pos : 0 < value.size :=
  lt_of_lt_of_le (by positivity) (two_zpow_le_size nonzero)

/-- The grid of the seventeenth digit of a value. -/
def fineGrid (value : Binary) : Int := Int.log 10 value.size - 16

include nonzero in
theorem fineGrid_bounds : 10 ^ value.fineGrid * 10 ^ 16 ≤ value.size ∧
    value.size < 10 ^ (value.fineGrid + 17) := by
  have base : ((10 : Nat) : ℚ) = 10 := by norm_num
  constructor
  · have low := Int.zpow_log_le_self (b := 10) (by decide) (size_pos nonzero)
    rw [base] at low
    rwa [← zpow_natCast, ← zpow_add₀ (by norm_num), fineGrid, Nat.cast_ofNat, Int.sub_add_cancel]
  · have high := Int.lt_zpow_succ_log_self (b := 10) (by decide) value.size
    rw [base] at high
    rwa [fineGrid, show Int.log 10 value.size - 16 + 17 = Int.log 10 value.size + 1 by ring]

include proper nonzero

/-- The search gets as far as the seventeenth digit. -/
theorem fineGrid_reached : value.fineGrid ≤ value.startGrid ∧
    value.startGrid < value.fineGrid + 24 := by
  obtain ⟨low, high⟩ := fineGrid_bounds nonzero
  obtain ⟨notLess, notMore⟩ := log_bounds proper nonzero
  have isLess := two_zpow_le_size nonzero
  constructor
  · by_contra isAbove
    obtain ⟨count, covers⟩ := exists_covers_of_fine proper nonzero low
    exact not_covers_of_startGrid_le proper nonzero (by omega) count covers
  · have least : (10 : ℚ) ^ (value.startGrid - 5) ≤
        2 ^ (value.exponent + value.significand.log2) := by
      unfold startGrid
      exact ten_zpow_le_two_zpow (by omega) (by omega)
    have order : (10 : ℚ) ^ (value.startGrid - 5) < 10 ^ (value.fineGrid + 17) :=
      (least.trans isLess).trans_lt high
    have := (zpow_lt_zpow_iff_right₀ (by norm_num)).mp order
    omega

theorem isShortest_shortest (tie : Tie) : value.IsShortest tie (value.shortest tie) := by
  obtain ⟨notMore, isReached⟩ := fineGrid_reached proper nonzero
  obtain ⟨count, covers⟩ := exists_covers_of_fine proper nonzero (fineGrid_bounds nonzero).1
  exact isShortest_searchGrids tie nonzero
    (fun higher isHigher => not_covers_of_startGrid_le proper nonzero isHigher.le)
    notMore isReached covers

variable {tie : Tie} {decimal : Decimal} (isShortest : value.IsShortest tie decimal)

include isShortest

theorem fineGrid_le : value.fineGrid ≤ decimal.exponent := by
  by_contra isLess
  obtain ⟨count, covers⟩ := exists_covers_of_fine proper nonzero (fineGrid_bounds nonzero).1
  exact isShortest.fewest _ (by omega) count covers

/-- The shortest decimal of a large value is whole. -/
theorem exponent_nonneg (large : 10 ^ 16 ≤ value.size) : 0 ≤ decimal.exponent := by
  by_contra isNegative
  have fine := fineGrid_le proper nonzero isShortest
  have high := (fineGrid_bounds nonzero).2
  have bound : (10 : ℚ) ^ (value.fineGrid + 17) ≤ 10 ^ (16 : Int) :=
    zpow_le_zpow_right₀ (by norm_num) (by omega)
  exact absurd (high.trans_le bound) (not_lt.mpr large)

/-- Seventeen digits suffice: a decimal of more of them could be replaced by a power of ten. -/
theorem digits_lt : decimal.digits < 10 ^ 17 := by
  by_contra many
  have fine := fineGrid_le proper nonzero isShortest
  obtain ⟨-, high⟩ := fineGrid_bounds nonzero
  have notLess : value.size ≤ 10 ^ (decimal.exponent + 17) :=
    high.le.trans (zpow_le_zpow_right₀ (by norm_num) (by omega))
  have notMore : (10 : ℚ) ^ (decimal.exponent + 17) ≤ decimal.digits * 10 ^ decimal.exponent := by
    rw [zpow_add₀ (by norm_num), mul_comm]
    gcongr
    exact_mod_cast not_lt.mp many
  have covers := (covers_size nonzero).mid isShortest.covers notLess notMore
  apply isShortest.fewest (decimal.exponent + 17) (by omega) 1
  rwa [Nat.cast_one, one_mul]

omit proper nonzero in
theorem IsShortest.unique {other : Decimal} (isOther : value.IsShortest tie other) :
    decimal = other := by
  have sameGrid : decimal.exponent = other.exponent := by
    rcases lt_trichotomy decimal.exponent other.exponent with isLess | same | isMore
    · exact absurd isOther.covers (isShortest.fewest _ isLess _)
    · exact same
    · exact absurd isShortest.covers (isOther.fewest _ isMore _)
  obtain ⟨digits, grid⟩ := decimal
  obtain ⟨others, same⟩ := other
  obtain rfl : grid = same := sameGrid
  have distance := le_antisymm (isShortest.nearest _ isOther.covers)
    (isOther.nearest _ isShortest.covers)
  by_contra different
  have notSame : digits ≠ others := by
    rintro rfl
    exact different rfl
  have first := isShortest.tied _ isOther.covers distance.symm notSame.symm
  have second := isOther.tied _ isShortest.covers distance notSame
  cases tie <;> simp only [Tie.Prefers] at first second <;> omega

end Binary

end OData.Number
