import LaneGrid.Bins.Level
import LaneGrid.Bins.Mapper

/-!
# Bins of equal width

`EqualBins ℓ` splits the range from `lower` up to, but not including, `upper` into `bins` parts of
the same width. A sample outside the range, or one that compares with nothing, has no bin, and so
has every sample when `lower` is not below `upper`. Every bin is below `bins` (`EqualBins.bin_lt`),
whatever rounding does in the last part.
-/

namespace LaneGrid

variable {σ ℓ : Type}

/-- `bins` parts of equal width. -/
structure EqualBins (ℓ : Type) where
  bins : Nat
  lower : ℓ
  upper : ℓ
  bins_pos : 0 < bins

namespace EqualBins

/-- One bin fewer than `levels`, of which there are two at least. -/
def build (levels : Nat) (lower upper : ℓ) : Except (LevelsError ℓ) (EqualBins ℓ) :=
  if h : 2 ≤ levels then .ok ⟨levels - 1, lower, upper, by omega⟩ else .error (.tooFew levels)

theorem build_ok {levels : Nat} {lower upper : ℓ} {m : EqualBins ℓ} :
    build levels lower upper = .ok m ↔
      m.bins + 1 = levels ∧ m.lower = lower ∧ m.upper = upper := by
  unfold build
  constructor
  · intro h
    split at h <;> cases h
    exact ⟨Nat.sub_add_cancel (by omega), rfl, rfl⟩
  · rintro ⟨rfl, rfl, rfl⟩
    rw [dif_pos (Nat.succ_le_succ m.bins_pos)]
    rfl

variable [Level ℓ]

/-- The bin of a sample; the last one also takes what rounding moves beyond it. -/
def bin (m : EqualBins ℓ) (sample : ℓ) : Option Nat :=
  if Level.le m.lower sample && Level.lt sample m.upper then
    some (min (Level.evenIndex sample m.lower m.upper m.bins) (m.bins - 1))
  else none

theorem bin_lt {m : EqualBins ℓ} {sample : ℓ} {index : Nat} (h : m.bin sample = some index) :
    index < m.bins := by
  unfold bin at h
  split at h
  · have := m.bins_pos
    simp only [Option.some.injEq] at h
    omega
  · simp at h

/-- The bins of samples that read as levels. -/
def mapper (m : EqualBins ℓ) (toLevel : σ → ℓ) : Mapper σ where
  bins := m.bins
  bin sample := m.bin (toLevel sample)
  bin_lt := bin_lt

end EqualBins

end LaneGrid
