/-!
# Binary floating-point values

What a bit pattern of an interchange format stands for, in exact integers.

* `BinaryFormat`: how many bits the fraction and the exponent take; `binary32` and `binary64` are
  the two formats in use.
* `BinaryFormat.value`: the value of a pattern. A finite magnitude is `mantissa * 2 ^ exponent`
  (`Dyadic`), kept together with whether the gap below it is half the gap above it.
-/

namespace LaneGrid.Decimal

/-- A magnitude `mantissa * 2 ^ exponent` of some format. -/
structure Dyadic where
  mantissa : Nat
  exponent : Int
  /-- The next smaller magnitude of the format is only half as far away as the next larger one. -/
  narrowBelow : Bool

/-- What a bit pattern stands for. -/
inductive BinaryValue where
  | nan
  | infinite (negative : Bool)
  | finite (negative : Bool) (magnitude : Dyadic)

/-- The widths of the fraction and exponent fields, below one sign bit. -/
structure BinaryFormat where
  fractionBits : Nat
  exponentBits : Nat

namespace BinaryFormat

def binary32 : BinaryFormat := ⟨23, 8⟩
def binary64 : BinaryFormat := ⟨52, 11⟩

/-- The exponent of the unit in which subnormal magnitudes are counted. -/
def leastExponent (f : BinaryFormat) : Int := 2 - Nat.pow 2 (f.exponentBits - 1) - f.fractionBits

/-- The magnitude of a pattern with the given exponent field, which is not the greatest one:
field 0 holds the subnormals, every other one adds a leading bit to the fraction. -/
def magnitude (f : BinaryFormat) (field fraction : Nat) : Dyadic :=
  if field = 0 then ⟨fraction, f.leastExponent, false⟩
  else ⟨Nat.pow 2 f.fractionBits + fraction, f.leastExponent + (field - 1 : Nat),
    decide (fraction = 0 ∧ 1 < field)⟩

/-- The value of a bit pattern. -/
def value (f : BinaryFormat) (pattern : Nat) : BinaryValue :=
  let fraction := pattern % Nat.pow 2 f.fractionBits
  let field := pattern / Nat.pow 2 f.fractionBits % Nat.pow 2 f.exponentBits
  let negative := decide (pattern / Nat.pow 2 (f.fractionBits + f.exponentBits) % 2 = 1)
  if field + 1 = Nat.pow 2 f.exponentBits then
    if fraction = 0 then .infinite negative else .nan
  else .finite negative (f.magnitude field fraction)

end BinaryFormat

end LaneGrid.Decimal
