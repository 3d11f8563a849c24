import LaneGrid.InvalidArgument

/-!
# Bins of samples

* `Mapper σ`: a number of bins, and the bin of every sample of type `σ` that has one.
* `Mapper.count`: how many samples fall into each bin, counted one by one.
* `LevelsError`: what can be wrong with the levels that bins are made from. There is one bin fewer
  than there are levels.
-/

namespace LaneGrid

variable {σ ℓ : Type}

/-- A number of bins and the bin of every sample that is in range. -/
structure Mapper (σ : Type) where
  bins : Nat
  bin : σ → Option Nat
  bin_lt : ∀ {sample index}, bin sample = some index → index < bins

/-- Counts samples one at a time; a sample out of range is not counted. -/
def Mapper.count (m : Mapper σ) (samples : List σ) : Array Nat :=
  samples.foldl
    (fun counts sample =>
      match m.bin sample with
      | some index => counts.modify index (· + 1)
      | none => counts)
    (Array.replicate m.bins 0)

/-- Why levels make no bins. -/
inductive LevelsError (ℓ : Type) where
  | tooFew (levels : Nat)
  /-- Two neighbouring boundaries, of which the first is not at or below the second. -/
  | unsorted (first second : ℓ)
deriving DecidableEq

/-- The error's wording, given the text of a level. -/
def LevelsError.report (text : ℓ → String) : LevelsError ℓ → InvalidArgument
  | .tooFew levels => ⟨"levels", "must be at least 2, got " ++ toString levels⟩
  | .unsorted first second =>
    ⟨"levels", "boundaries must be sorted ascending, " ++ text first ++ " precedes " ++ text second⟩

end LaneGrid
