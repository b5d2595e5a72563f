/-
# Shortest decimals

Of all decimals that read back as a given float, the one with the fewest digits,
and of those the nearest to the float. A decimal with few digits is a multiple of
a high power of ten, so powers of ten are tried from high to low; the first that
has a multiple inside the rounding interval decides the number of digits.

A float is taken apart first. All that the library prints about it is computed from
the integers that it stands for.
-/

namespace OData.Number

/-! ## Binary floating-point values -/

/-- A finite float: `significand * 2 ^ exponent`, with a sign of its own so that
the two zeros differ. -/
structure Binary where
  /-- The sign bit is set. -/
  negative : Bool
  /-- The significand as an integer below `2 ^ 53`. -/
  significand : Nat
  /-- The power of two, at least `-1074`. -/
  exponent : Int
  deriving DecidableEq

/-- What a float can be. -/
inductive FloatKind where
  /-- An ordinary number or a zero. -/
  | finite (value : Binary)
  /-- An infinity, with its sign. -/
  | infinite (negative : Bool)
  /-- Not a number. -/
  | undefined

/-- Take a float apart: one sign bit, eleven bits of exponent, and 52 bits of
significand below an implied leading one, which the least exponent lacks. -/
def floatKind (x : Float) : FloatKind :=
  let bits : Nat := x.toBits.toNat
  let negative := bits / 0x8000000000000000 == 1
  let field : Nat := bits / 0x10000000000000 % 0x800
  let fraction : Nat := bits % 0x10000000000000
  if field = 2047 then
    if fraction = 0 then .infinite negative else .undefined
  else if field = 0 then .finite ⟨negative, fraction, -1074⟩
  else .finite ⟨negative, 0x10000000000000 + fraction, Int.ofNat field - 1075⟩

/-- The float is a number or a zero, so it has a decimal form. -/
def isFinite (x : Float) : Bool :=
  match floatKind x with
  | .finite _ => true
  | _ => false

/-! ## Decimals -/

/-- Which of two equally near decimals is taken. -/
inductive Tie where
  /-- The one with the even last digit. -/
  | toEven
  /-- The larger one. -/
  | upward
  deriving DecidableEq

/-- A positive decimal `digits * 10 ^ exponent`. -/
structure Decimal where
  /-- The digits read as an integer. -/
  digits : Nat
  /-- The power of ten. -/
  exponent : Int
  deriving DecidableEq

namespace Binary

/-- Least end of the reals that round to the value, in quarter units of the last
place; below a power of two the gap is half as wide. -/
def lowQuarter (value : Binary) : Nat :=
  if value.significand = 0x10000000000000 ∧ value.exponent ≠ -1074 then 4 * value.significand - 1
  else 4 * value.significand - 2

/-- Greatest end of the reals that round to the value, in quarter units. -/
def highQuarter (value : Binary) : Nat :=
  4 * value.significand + 2

/-- A number of quarter units, over the common denominator of the grid
`10 ^ grid`. -/
def onGrid (value : Binary) (grid : Int) (quarters : Nat) : Nat :=
  quarters * Nat.pow 2 (value.exponent - 2).toNat * Nat.pow 10 (-grid).toNat

/-- The common denominator of quarter units and multiples of `10 ^ grid`. -/
def gridUnit (value : Binary) (grid : Int) : Nat :=
  Nat.pow 2 (2 - value.exponent).toNat * Nat.pow 10 grid.toNat

/-- The multiple `count * 10 ^ grid` reads back as the value. The ends of the
interval round to it exactly when its significand is even. -/
def readsBack (value : Binary) (grid : Int) (count : Nat) : Bool :=
  let position := count * value.gridUnit grid
  let low := value.onGrid grid value.lowQuarter
  let high := value.onGrid grid value.highQuarter
  if value.significand % 2 = 0 then low ≤ position && position ≤ high
  else low < position && position < high

/-- The nearest multiple of `10 ^ grid` that reads back, if a multiple does. Of
all multiples only the two neighbours of the value need to be looked at. -/
def nearestOnGrid? (tie : Tie) (value : Binary) (grid : Int) : Option Nat :=
  let unit := value.gridUnit grid
  let centre := value.onGrid grid (4 * value.significand)
  let below := centre / unit
  let rest := centre % unit
  match value.readsBack grid below, value.readsBack grid (below + 1) with
  | false, false => none
  | true, false => some below
  | false, true => some (below + 1)
  | true, true =>
      if 2 * rest < unit then some below
      else if unit < 2 * rest then some (below + 1)
      else match tie with
        | .upward => some (below + 1)
        | .toEven => some (if below % 2 = 0 then below else below + 1)

/-- A power of ten above the whole rounding interval. -/
def startGrid (value : Binary) : Int :=
  (value.exponent + (value.significand.log2 : Int) + 2) * 30103 / 100000 + 2

/-- Try `tries` grids from `grid` downwards. -/
def searchGrids (tie : Tie) (value : Binary) : (tries : Nat) → (grid : Int) → Decimal
  | 0, grid => ⟨value.onGrid grid (4 * value.significand) / value.gridUnit grid, grid⟩
  | tries + 1, grid =>
      match value.nearestOnGrid? tie grid with
      | some count => ⟨count, grid⟩
      | none => searchGrids tie value tries (grid - 1)

/-- The shortest decimal of a value other than zero. Seventeen digits always
suffice, and the search begins at most four grids above the first digit. -/
def shortest (tie : Tie) (value : Binary) : Decimal :=
  searchGrids tie value 24 value.startGrid

end Binary

end OData.Number
