import LaneGrid.Decimal.Binary

/-!
# The shortest decimal that reads back

Every magnitude of a binary format owns the interval of reals that are rounded to it. `shortest`
is the decimal `coefficient * 10 ^ exponent` in that interval with the fewest digits, and among
those the nearest one to the magnitude, or the larger one if two are equally near.

* `Interval`: the reals owned by a magnitude, in units of `2 ^ (exponent - 2)`, where the ends and
  the magnitude itself are integers; the ends belong to it iff the mantissa is even.
* `Interval.holds`: the test of one decimal, in exact `Nat` arithmetic.
* `shortest`: tries one digit, then two, and so on, on the two neighbours of the magnitude on the
  grid of that many digits. If a grid has a point in the interval, one of those two is in it.
-/

namespace LaneGrid.Decimal

/-- How many decimal digits `n` has; one for zero. -/
def digitCount (n : Nat) : Nat := (Nat.toDigits 10 n).length

/-- The reals that round to a magnitude, all three points counted in the same unit. -/
structure Interval where
  lower : Nat
  middle : Nat
  upper : Nat
  /-- The unit is `2 ^ unitExponent`. -/
  unitExponent : Int
  closed : Bool

/-- The reals from halfway to the next smaller magnitude up to halfway to the next larger one. -/
def Dyadic.interval (d : Dyadic) : Interval where
  lower := 4 * d.mantissa - if d.narrowBelow then 1 else 2
  middle := 4 * d.mantissa
  upper := 4 * d.mantissa + 2
  unitExponent := d.exponent - 2
  closed := d.mantissa % 2 == 0

namespace Interval

/-- `points * 2 ^ unitExponent / 10 ^ grid` as a fraction. -/
def scaled (i : Interval) (points : Nat) (grid : Int) : Nat × Nat :=
  (points * Nat.pow 2 i.unitExponent.toNat * Nat.pow 10 (-grid).toNat,
    Nat.pow 2 (-i.unitExponent).toNat * Nat.pow 10 grid.toNat)

/-- Whether the decimal `coefficient * 10 ^ grid` lies in the interval. -/
def holds (i : Interval) (coefficient : Nat) (grid : Int) : Bool :=
  let (low, unit) := i.scaled i.lower grid
  let (high, _) := i.scaled i.upper grid
  let point := coefficient * unit
  (low < point || i.closed && low == point) && (point < high || i.closed && point == high)

/-- Whether the magnitude, which lies between `coefficient` and `coefficient + 1` on the grid, is at
least as near to the upper one. -/
def roundsUp (i : Interval) (coefficient : Nat) (grid : Int) : Bool :=
  let (middle, unit) := i.scaled i.middle grid
  (2 * coefficient + 1) * unit ≤ 2 * middle

/-- The neighbour of the magnitude on the grid `10 ^ grid` that lies in the interval; of two the
nearer one, and of two equally near ones the upper one. -/
def pick? (i : Interval) (grid : Int) : Option Nat :=
  let (middle, unit) := i.scaled i.middle grid
  let below := middle / unit
  match i.holds below grid, i.holds (below + 1) grid with
  | true, true => some (if i.roundsUp below grid then below + 1 else below)
  | true, false => some below
  | false, true => some (below + 1)
  | false, false => none

/-- The power of ten of the leading digit of the magnitude. -/
def leadingExponent (i : Interval) : Int :=
  let (middle, unit) := i.scaled i.middle 0
  let places := digitCount unit
  (digitCount (middle * Nat.pow 10 places / unit) : Int) - 1 - places

/-- Grids from `10 ^ grid` downwards, at most `fuel + 1` of them, until one has a point in the
interval; on the last one the magnitude is cut off. -/
def search (i : Interval) (grid : Int) : Nat → Nat × Int
  | 0 => let (middle, unit) := i.scaled i.middle grid; (middle / unit, grid)
  | fuel + 1 =>
    match i.pick? grid with
    | some coefficient => (coefficient, grid)
    | none => i.search (grid - 1) fuel

end Interval

/-- The coefficient and the power of ten of the shortest decimal that rounds to a magnitude. A grid
finer than the interval's unit always has a point in it, so the search is never cut off. -/
def shortest (d : Dyadic) : Nat × Int :=
  d.interval.search d.interval.leadingExponent (digitCount d.interval.middle + 2)

end LaneGrid.Decimal
