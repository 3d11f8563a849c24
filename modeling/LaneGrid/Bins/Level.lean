import LaneGrid.Word
import LaneGrid.Decimal.Text

/-!
# Levels

What bins can be bounded by: words of every kind, and floating-point numbers of both formats.

* `Level`: comparisons, which may all be false (a NaN compares with nothing); the equal-width bin of
  a sample; and the text of a level in messages.
* Words are placed in a bin by one exact division (`Word.evenIndex`), floating-point numbers by
  scaling in their own format.
-/

namespace LaneGrid

/-- Values that bound bins. -/
class Level (ℓ : Type) where
  le : ℓ → ℓ → Bool
  lt : ℓ → ℓ → Bool
  /-- Where a sample from `lower` up to, but not including, `upper` lies among `bins` parts of that
  range. Rounding may give `bins` itself. -/
  evenIndex (sample lower upper : ℓ) (bins : Nat) : Nat
  text : ℓ → String

namespace Word

variable {k : IntKind}

/-- The distance of a sample from the lower end of a range, times the number of bins. -/
def scaledOffset (sample lower : Word k) (bins : Nat) : Int := (sample.toInt - lower.toInt) * bins

/-- The share of the range below a sample, in bins, rounded down. -/
def evenIndex (sample lower upper : Word k) (bins : Nat) : Nat :=
  (scaledOffset sample lower bins / (upper.toInt - lower.toInt)).toNat

instance : Level (Word k) := ⟨le, lt, evenIndex, text⟩

end Word

/-! ## Floating-point levels -/

/-- Every step is rounded to single precision. -/
instance : Level Float32 where
  le a b := decide (a ≤ b)
  lt a b := decide (a < b)
  evenIndex sample lower upper bins :=
    ((sample - lower) / (upper - lower) * Float32.ofNat bins).toUInt64.toNat
  text a := Decimal.boundaryLayout.write (Decimal.BinaryFormat.binary32.value a.toBits.toNat)

/-- Every step is rounded to double precision. -/
instance : Level Float where
  le a b := decide (a ≤ b)
  lt a b := decide (a < b)
  evenIndex sample lower upper bins :=
    ((sample - lower) / (upper - lower) * Float.ofNat bins).toUInt64.toNat
  text a := Decimal.boundaryLayout.write (Decimal.BinaryFormat.binary64.value a.toBits.toNat)

end LaneGrid
