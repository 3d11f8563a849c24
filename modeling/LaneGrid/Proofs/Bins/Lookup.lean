import Mathlib.Data.List.Pairwise
import LaneGrid.Proofs.Bins.Ranges

/-!
# Looking samples up among boundaries

Boundaries make bins when there are two of them at least and none is above a later one, and the bin
of a sample is then the interval between two neighbouring boundaries that it lies in
(`interval_lookup`).

* `exists_build_iff`: the check of neighbours is a check of all pairs.
* `bin_eq_some_iff`: what halving finds, whatever the order that levels are compared in.
* `Between`: the interval that begins at a boundary. It is empty when that boundary comes twice.
-/

namespace LaneGrid

variable {k : IntKind} {ℓ : Type}

/-! ## Which boundaries make bins -/

theorem firstDescent_of_pairwise [Level ℓ] : ∀ {levels : List ℓ},
    (levels.Pairwise fun a b => Level.le a b = true) → firstDescent levels = none
  | [], _ => rfl
  | [_], _ => rfl
  | a :: b :: rest, h => by
    obtain ⟨ha, hrest⟩ := List.pairwise_cons.1 h
    rw [firstDescent, if_pos (ha b List.mem_cons_self)]
    exact firstDescent_of_pairwise hrest

namespace BoundaryBins

section
variable [Level ℓ] [OrderedLevel ℓ]

theorem exists_build_iff {boundaries : Array ℓ} : (∃ m, build boundaries = .ok m) ↔
    2 ≤ boundaries.size ∧ ∀ i j (hij : i < j) (hj : j < boundaries.size),
      Level.le boundaries[i] boundaries[j] = true := by
  refine ⟨fun ⟨m, hm⟩ => ?_, fun ⟨hsize, hle⟩ => ?_⟩
  · obtain rfl := build_ok.1 hm
    have hpairwise := List.pairwise_iff_getElem.1 (pairwise_of_firstDescent m.ascending)
    exact ⟨m.two_le, fun i j hij hj => hpairwise i j _ (by simpa) hij⟩
  · have hpairwise : boundaries.toList.Pairwise fun a b => Level.le a b = true := by
      refine List.pairwise_iff_getElem.2 fun i j hi hj hij => ?_
      simpa using hle i j hij (by simpa using hj)
    exact ⟨⟨boundaries, hsize, firstDescent_of_pairwise hpairwise⟩, build_ok.2 rfl⟩

/-- A sample's bin begins at the last boundary at or below the sample, and there is one more. -/
theorem bin_eq_some_iff (m : BoundaryBins ℓ) {sample : ℓ} {j : Nat} : m.bin sample = some j ↔
    ∃ hj : j + 1 < m.boundaries.size, Level.le m.boundaries[j] sample = true ∧
      ¬Level.le m.boundaries[j + 1] sample = true := by
  have hsize : upperBound m.boundaries sample 0 m.boundaries.size (Nat.le_refl _) ≤ _ :=
    upperBound_le _ (Nat.zero_le _)
  unfold bin
  dsimp only
  refine ⟨fun h => ?_, fun ⟨hj, hlower, hupper⟩ => ?_⟩
  · split at h
    · cases h
    · simp only [Option.some.injEq] at h
      refine ⟨by omega, ?_⟩
      rw [m.le_iff_lt, m.le_iff_lt]
      omega
  · rw [m.le_iff_lt] at hlower hupper
    rw [if_neg (by omega), Option.some.injEq]
    omega

end

/-! ## Intervals -/

/-- A value lies from boundary `j` up to, but not including, boundary `j + 1`. -/
def Between (boundaries : Array (Word k)) (j : Nat) (value : Int) : Prop :=
  ∃ lower upper, boundaries[j]? = some lower ∧ boundaries[j + 1]? = some upper ∧
    lower.toInt ≤ value ∧ value < upper.toInt

theorem bin_eq_some_iff_between (m : BoundaryBins (Word k)) {sample : Word k} {j : Nat} :
    m.bin sample = some j ↔ Between m.boundaries j sample.toInt := by
  rw [bin_eq_some_iff]
  refine ⟨fun ⟨hj, hlower, hupper⟩ => ?_, fun ⟨lower, upper, hj, hnext, hlower, hupper⟩ => ?_⟩
  · rw [Word.le_iff] at hlower hupper
    exact ⟨_, _, Array.getElem?_eq_getElem _, Array.getElem?_eq_getElem hj, hlower,
      Int.not_le.1 hupper⟩
  · obtain ⟨_, rfl⟩ := Array.getElem?_eq_some_iff.1 hj
    obtain ⟨hlt, rfl⟩ := Array.getElem?_eq_some_iff.1 hnext
    exact ⟨hlt, Word.le_iff.2 hlower, fun h => Int.not_le.2 hupper (Word.le_iff.1 h)⟩

/-- A value is below the first boundary, or at or above the last one. -/
def Outside (boundaries : Array (Word k)) (value : Int) : Prop :=
  ∃ first last, boundaries[0]? = some first ∧ boundaries.back? = some last ∧
    (value < first.toInt ∨ last.toInt ≤ value)

theorem bin_eq_none_iff_outside (m : BoundaryBins (Word k)) {sample : Word k} :
    m.bin sample = none ↔ Outside m.boundaries sample.toInt := by
  have htwo := m.two_le
  have hfirst : m.boundaries[0]? = some m.boundaries[0] := Array.getElem?_eq_getElem _
  have hlast : m.boundaries.back? = some m.boundaries[m.boundaries.size - 1] := by
    rw [Array.back?_eq_getElem?]
    exact Array.getElem?_eq_getElem _
  rw [← Option.not_isSome_iff_eq_none, m.isSome_bin hfirst hlast, inRange_iff, Word.le_iff,
    Word.lt_iff, not_and_or, Int.not_le, Int.not_lt]
  refine ⟨fun h => ⟨_, _, hfirst, hlast, h⟩, fun ⟨first, last, hfirst', hlast', h⟩ => ?_⟩
  obtain rfl := Option.some.inj (hfirst.symm.trans hfirst')
  obtain rfl := Option.some.inj (hlast.symm.trans hlast')
  exact h

/-- What looking a value up among boundaries gives: the interval that the value lies in. -/
structure LookedUp (boundaries : Array (Word k)) (bins : Nat) (value : Int) (bin : Option Nat) :
    Prop where
  size_eq : boundaries.size = bins + 1
  some_iff : ∀ j, bin = some j ↔ Between boundaries j value
  none_iff : bin = none ↔ Outside boundaries value
  unique : ∀ i j, Between boundaries i value → Between boundaries j value → i = j
  lt_bins : ∀ j, bin = some j → j < bins
  /-- Between a boundary and itself there is nothing. -/
  repeated : ∀ j b, boundaries[j]? = some b → boundaries[j + 1]? = some b → bin ≠ some j

/-- **Bins between boundaries are intervals**: ascending boundaries make bins, and no others do, and
a sample's bin is the interval that it lies in. -/
theorem interval_lookup (boundaries : Array (Word k)) :
    ((∃ m, build boundaries = .ok m) ↔
      2 ≤ boundaries.size ∧ ∀ i j (hij : i < j) (hj : j < boundaries.size),
        boundaries[i].toInt ≤ boundaries[j].toInt) ∧
    ∀ m, build boundaries = .ok m → ∀ {σ : Type} (toLevel : σ → Word k) (sample : σ),
      LookedUp boundaries (m.mapper toLevel).bins (toLevel sample).toInt
        ((m.mapper toLevel).bin sample) := by
  refine ⟨by simp only [exists_build_iff, Word.le_iff], ?_⟩
  intro m hm σ toLevel sample
  obtain rfl := build_ok.1 hm
  have htwo := m.two_le
  have hsome : ∀ j, m.bin (toLevel sample) = some j ↔ _ := fun j => m.bin_eq_some_iff_between
  refine
    { size_eq := (Nat.sub_add_cancel (by omega)).symm
      some_iff := hsome
      none_iff := m.bin_eq_none_iff_outside
      unique := fun i j hi hj => ?_
      lt_bins := fun j => bin_lt
      repeated := fun j b hj hnext hbin => ?_ }
  · exact Option.some.inj (((hsome i).2 hi).symm.trans ((hsome j).2 hj))
  · obtain ⟨lower, upper, hlower, hupper, hle, hlt⟩ := (hsome j).1 hbin
    obtain rfl := Option.some.inj (hj.symm.trans hlower)
    obtain rfl := Option.some.inj (hnext.symm.trans hupper)
    omega

/-- A boundary that comes three times. -/
def repeatedBins : BoundaryBins (Word .i8) :=
  ⟨#[.ofInt (-3), .ofInt 5, .ofInt 5, .ofInt 5, .ofInt 9], by decide, by decide⟩

theorem interval_lookup_repeated :
    LookedUp repeatedBins.boundaries 4 5 (repeatedBins.bin (.ofInt 5)) ∧
      repeatedBins.bin (.ofInt 5) = some 3 := by
  have hbuild : build repeatedBins.boundaries = .ok repeatedBins := build_ok.2 rfl
  have hlooked := (interval_lookup repeatedBins.boundaries).2 repeatedBins hbuild id (.ofInt 5)
  exact ⟨hlooked, (hlooked.some_iff 3).2 ⟨_, _, rfl, rfl, by decide, by decide⟩⟩

end BoundaryBins

end LaneGrid
