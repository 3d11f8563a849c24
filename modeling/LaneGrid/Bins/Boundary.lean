import LaneGrid.Bins.Level
import LaneGrid.Bins.Mapper

/-!
# Bins between boundaries

`BoundaryBins ℓ` has an explicit list of boundaries, in ascending order. Bin `j` goes from boundary
`j` up to, but not including, boundary `j + 1`, so that a boundary given twice has an empty bin.

* `firstDescent`: the first boundary that is not at or below the next one, which
  `BoundaryBins.build` refuses.
* `upperBound`: the first boundary that is not at or below a sample, by halving.
-/

namespace LaneGrid

variable {σ ℓ : Type} [Level ℓ]

/-- The first two neighbours of which the first is not at or below the second. -/
def firstDescent : List ℓ → Option (ℓ × ℓ)
  | a :: b :: rest => if Level.le a b then firstDescent (b :: rest) else some (a, b)
  | _ => none

/-- Bins between ascending boundaries. -/
structure BoundaryBins (ℓ : Type) [Level ℓ] where
  boundaries : Array ℓ
  two_le : 2 ≤ boundaries.size
  ascending : firstDescent boundaries.toList = none

namespace BoundaryBins

/-- Two boundaries at least, each at or below the next. -/
def build (boundaries : Array ℓ) : Except (LevelsError ℓ) (BoundaryBins ℓ) :=
  if h2 : 2 ≤ boundaries.size then
    match h : firstDescent boundaries.toList with
    | none => .ok ⟨boundaries, h2, h⟩
    | some (a, b) => .error (.unsorted a b)
  else .error (.tooFew boundaries.size)

theorem build_ok {boundaries : Array ℓ} {m : BoundaryBins ℓ} :
    build boundaries = .ok m ↔ m.boundaries = boundaries := by
  obtain ⟨boundaries', h2, hascending⟩ := m
  unfold build
  constructor
  · intro h
    split at h
    · split at h <;> cases h
      rfl
    · cases h
  · rintro rfl
    rw [dif_pos h2]
    split
    · rfl
    · rename_i hdescent
      rw [hascending] at hdescent
      cases hdescent

def bins (m : BoundaryBins ℓ) : Nat := m.boundaries.size - 1

/-- The first index from `low` up to `high` whose boundary is not at or below the sample, or `high`
if there is none, when the boundaries at or below it come first. -/
def upperBound (boundaries : Array ℓ) (sample : ℓ) (low high : Nat) (h : high ≤ boundaries.size) :
    Nat :=
  if hlt : low < high then
    have : (low + high) / 2 < boundaries.size := by omega
    if Level.le boundaries[(low + high) / 2] sample then
      upperBound boundaries sample ((low + high) / 2 + 1) high h
    else upperBound boundaries sample low ((low + high) / 2) (by omega)
  else low
termination_by high - low

/-- The bin of a sample: the one that begins at the last boundary at or below it. -/
def bin (m : BoundaryBins ℓ) (sample : ℓ) : Option Nat :=
  let above := upperBound m.boundaries sample 0 m.boundaries.size (Nat.le_refl _)
  if above = 0 ∨ above = m.boundaries.size then none else some (above - 1)

theorem upperBound_le {boundaries : Array ℓ} {sample : ℓ} {low high : Nat}
    (h : high ≤ boundaries.size) (hle : low ≤ high) :
    upperBound boundaries sample low high h ≤ high := by
  fun_induction upperBound boundaries sample low high h with
  | case1 low high _ _ _ _ ih => exact ih (by omega)
  | case2 low high _ _ _ _ ih => exact Nat.le_trans (ih (by omega)) (by omega)
  | case3 low high _ _ => exact hle

theorem bin_lt {m : BoundaryBins ℓ} {sample : ℓ} {index : Nat} (h : m.bin sample = some index) :
    index < m.bins := by
  unfold bin at h
  have hle : upperBound m.boundaries sample 0 m.boundaries.size (Nat.le_refl _) ≤ _ :=
    upperBound_le _ (Nat.zero_le _)
  simp only [] at h
  split at h
  · simp at h
  · simp only [Option.some.injEq] at h
    unfold bins
    omega

/-- The bins of samples that read as levels. -/
def mapper (m : BoundaryBins ℓ) (toLevel : σ → ℓ) : Mapper σ where
  bins := m.bins
  bin sample := m.bin (toLevel sample)
  bin_lt := bin_lt

end BoundaryBins

end LaneGrid
