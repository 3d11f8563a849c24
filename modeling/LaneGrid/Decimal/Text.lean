import LaneGrid.Decimal.Shortest

/-!
# Written floating-point values

* `Layout`: which magnitudes are written out in full, and how the special values are spelled.
* `Layout.write`: the text of a value, `positional` (`100.0`, `0.0001`) or `scientific` (`1.5e16`,
  `5e-324`).
* `boundaryLayout`: the layout of bin boundaries in messages.
-/

namespace LaneGrid.Decimal

/-- How floating-point values are written. -/
structure Layout where
  /-- Least power of ten of the leading digit that is written out in full. -/
  leastPositional : Int
  /-- Greatest power of ten of the leading digit that is written out in full. -/
  greatestPositional : Int
  infinity : String
  nan : String

/-- Boundaries are written out in full from `0.0001` to below `10 ^ 16`. -/
def boundaryLayout : Layout := ⟨-4, 15, "inf", "NaN"⟩

/-- The digits of a decimal without trailing zeros, and the power of ten of the first one. -/
def significant (coefficient : Nat) (grid : Int) : List Char × Int :=
  let digits := Nat.toDigits 10 coefficient
  ((digits.reverse.dropWhile (· == '0')).reverse, grid + digits.length - 1)

/-- A decimal point and at least one digit behind it: `digits` with the first one worth
`10 ^ exponent`. -/
def positional (digits : List Char) (exponent : Int) : String :=
  if exponent < 0 then
    String.ofList ("0.".toList ++ List.replicate (-exponent - 1).toNat '0' ++ digits)
  else
    let whole := exponent.toNat + 1
    let fraction := digits.drop whole
    String.ofList
      (digits.take whole ++ List.replicate (whole - digits.length) '0' ++
        '.' :: (if fraction.isEmpty then ['0'] else fraction))

/-- One digit, the others behind a point if there are any, and the power of ten behind an `e`. -/
def scientific (digits : List Char) (exponent : Int) : String :=
  match digits with
  | [] => ""
  | [d] => String.ofList [d, 'e'] ++ toString exponent
  | d :: rest => String.ofList (d :: '.' :: rest) ++ "e" ++ toString exponent

namespace Layout

/-- The text of a finite magnitude. -/
def writeMagnitude (l : Layout) (d : Dyadic) : String :=
  if d.mantissa = 0 then "0.0"
  else
    let (coefficient, grid) := shortest d
    let (digits, exponent) := significant coefficient grid
    if l.leastPositional ≤ exponent ∧ exponent ≤ l.greatestPositional then
      positional digits exponent
    else scientific digits exponent

/-- The text of a value: a minus sign stands in front of every negative one, zero included. -/
def write (l : Layout) : BinaryValue → String
  | .nan => l.nan
  | .infinite negative => (if negative then "-" else "") ++ l.infinity
  | .finite negative d => (if negative then "-" else "") ++ l.writeMagnitude d

end Layout

end LaneGrid.Decimal
