import Mathlib.Data.List.Nodup
import LaneGrid.Proofs.Cover
import LaneGrid.Proofs.Bins.Ranges

/-!
# Bins of equal width share out their range

Integers from a lower end up to an upper one fall into bins that differ by one integer at most
(`equal_shares`), however the number of bins divides the width.

* `evenIndex_eq_div`: a sample's index is its offset times the number of bins, through the width. It
  is always below the number of bins, so that the last bin takes nothing but its own share.
* `start`: where a bin begins: its share of the width, rounded up, above the lower end.
* `bin_eq_some_iff`: a bin goes from its start up to the next one. The index is rounded down just
  where the starts are rounded up.
* `share_eq_or`: how many integers a bin has.
-/

namespace LaneGrid.EqualBins

variable {k : IntKind}

/-! ## Indices -/

section
variable (m : EqualBins (Word k))

/-- How many integers the range holds. -/
def width : Nat := (m.upper.toInt - m.lower.toInt).toNat

/-- How far above the lower end a sample is. -/
def offset (sample : Word k) : Nat := (sample.toInt - m.lower.toInt).toNat

/-- The first integer of bin `j`, and the upper end for the bin after the last. -/
def start (j : Nat) : Int := m.lower.toInt + cover (j * m.width) m.bins

variable {m} {sample : Word k}

theorem inRange_iff_offset : inRange m.lower m.upper sample = true ↔
    m.lower.toInt ≤ sample.toInt ∧ m.offset sample < m.width := by
  rw [inRange_iff, Word.le_iff, Word.lt_iff, offset, width]
  omega

theorem scaledOffset_eq (h : m.lower.toInt ≤ sample.toInt) :
    Word.scaledOffset sample m.lower m.bins = (m.offset sample * m.bins : Nat) := by
  rw [Word.scaledOffset, offset, Int.natCast_mul, Int.toNat_of_nonneg (by omega)]

theorem evenIndex_eq_div (hin : inRange m.lower m.upper sample = true) :
    Word.evenIndex sample m.lower m.upper m.bins = m.offset sample * m.bins / m.width := by
  obtain ⟨hlower, hlt⟩ := inRange_iff_offset.1 hin
  have hwidth : m.upper.toInt - m.lower.toInt = m.width := by
    rw [width] at hlt ⊢
    omega
  rw [Word.evenIndex, scaledOffset_eq hlower, hwidth]
  exact Int.toNat_natCast _

/-- No sample of the range is moved beyond the last bin. -/
theorem evenIndex_lt (hin : inRange m.lower m.upper sample = true) :
    Word.evenIndex sample m.lower m.upper m.bins < m.bins := by
  obtain ⟨-, hlt⟩ := inRange_iff_offset.1 hin
  rw [evenIndex_eq_div hin, Nat.div_lt_iff_lt_mul (by omega), Nat.mul_comm m.bins]
  exact (Nat.mul_lt_mul_right m.bins_pos).2 hlt

theorem bin_eq_evenIndex (hin : inRange m.lower m.upper sample = true) :
    m.bin sample = some (Word.evenIndex sample m.lower m.upper m.bins) := by
  have hlt := evenIndex_lt hin
  refine (if_pos hin).trans (congrArg some ?_)
  exact Nat.min_eq_left (Nat.le_sub_one_of_lt hlt)

theorem bin_of_not_inRange (hout : ¬inRange m.lower m.upper sample = true) :
    m.bin sample = none := if_neg hout

theorem evenIndex_mono {sample' : Word k} (hin : inRange m.lower m.upper sample = true)
    (hin' : inRange m.lower m.upper sample' = true) (hle : sample.toInt ≤ sample'.toInt) :
    Word.evenIndex sample m.lower m.upper m.bins ≤
      Word.evenIndex sample' m.lower m.upper m.bins := by
  rw [evenIndex_eq_div hin, evenIndex_eq_div hin']
  refine Nat.div_le_div_right (Nat.mul_le_mul_right _ ?_)
  unfold offset
  omega

end

/-! ## Where bins begin -/

section
variable (m : EqualBins (Word k))

@[simp] theorem start_zero : m.start 0 = m.lower.toInt := by
  have hzero : cover 0 m.bins = 0 := Nat.le_zero.1 ((cover_le_iff m.bins_pos).2 (Nat.zero_le _))
  rw [start, Nat.zero_mul, hzero, Int.natCast_zero, Int.add_zero]

theorem start_mono {i j : Nat} (h : i ≤ j) : m.start i ≤ m.start j := by
  have hcover : cover (i * m.width) m.bins ≤ cover (j * m.width) m.bins :=
    cover_mono m.bins_pos (Nat.mul_le_mul_right _ h)
  unfold start
  omega

theorem lower_le_start (j : Nat) : m.lower.toInt ≤ m.start j :=
  m.start_zero ▸ m.start_mono (Nat.zero_le j)

variable {m} (hlt : m.lower.toInt < m.upper.toInt)
include hlt

theorem start_bins : m.start m.bins = m.upper.toInt := by
  rw [start, Nat.mul_comm, cover_mul _ m.bins_pos, width]
  omega

theorem start_le_upper {j : Nat} (hj : j ≤ m.bins) : m.start j ≤ m.upper.toInt :=
  start_bins hlt ▸ m.start_mono hj

/-- **A bin holds the samples from its start up to the next one.** -/
theorem bin_eq_some_iff {sample : Word k} {j : Nat} : m.bin sample = some j ↔
    j < m.bins ∧ m.start j ≤ sample.toInt ∧ sample.toInt < m.start (j + 1) := by
  by_cases hin : inRange m.lower m.upper sample = true
  · obtain ⟨hlower, hoffset⟩ := inRange_iff_offset.1 hin
    have hwidth : 0 < m.width := by omega
    have hstart : ∀ i, m.start i ≤ sample.toInt ↔ i * m.width ≤ m.offset sample * m.bins := by
      intro i
      rw [← cover_le_iff m.bins_pos, start, offset]
      omega
    have hindex := evenIndex_lt hin
    -- the index is the number of starts at or below the sample, less one
    rw [bin_eq_evenIndex hin, Option.some.injEq, ← Int.not_le, hstart, hstart,
      ← Nat.le_div_iff_mul_le hwidth, ← Nat.le_div_iff_mul_le hwidth, ← evenIndex_eq_div hin]
    omega
  · rw [bin_of_not_inRange hin]
    have hout := mt inRange_iff.2 hin
    rw [Word.le_iff, Word.lt_iff] at hout
    refine iff_of_false (by simp) fun ⟨hj, hlower, hupper⟩ => ?_
    have hfirst := m.lower_le_start j
    have hlast : m.start (j + 1) ≤ _ := start_le_upper hlt hj
    omega

end

/-! ## Shares -/

/-- How many numbers below `n` lie in an interval. -/
theorem countP_range_interval (start stop n : Nat) :
    (List.range n).countP (fun i => start ≤ i ∧ i < stop) = min stop n - start := by
  induction n with
  | zero => simp
  | succ n ih =>
    rw [List.range_succ, List.countP_append, ih, List.countP_singleton]
    simp only [decide_eq_true_eq]
    split <;> omega

section
variable (m : EqualBins (Word k))

/-- The integers of the range. -/
def values : List Int := (List.range m.width).map fun i : Nat => m.lower.toInt + i

/-- How many integers of the range fall into bin `j`. -/
def share (j : Nat) : Nat := m.values.countP fun v => m.bin (.ofInt v) = some j

theorem mem_values {v : Int} : v ∈ m.values ↔ m.lower.toInt ≤ v ∧ v < m.upper.toInt := by
  simp only [values, width, List.mem_map, List.mem_range]
  refine ⟨?_, fun ⟨hlower, hupper⟩ => ⟨(v - m.lower.toInt).toNat, by omega, by omega⟩⟩
  rintro ⟨i, hi, rfl⟩
  omega

theorem nodup_values : m.values.Nodup := by
  refine List.nodup_range.map ?_
  intro i i' h
  dsimp only at h
  omega

/-- An integer of the range is a level. -/
theorem toInt_of_mem_values {v : Int} (hv : v ∈ m.values) : (Word.ofInt v : Word k).toInt = v := by
  obtain ⟨hlower, hupper⟩ := m.mem_values.1 hv
  exact Word.toInt_ofInt (Int.le_trans m.lower.toInt_mem.1 hlower)
    (Int.lt_trans hupper m.upper.toInt_mem.2)

variable {m} (hlt : m.lower.toInt < m.upper.toInt) {j : Nat} (hj : j < m.bins)
include hlt hj

theorem share_eq : m.share j = cover ((j + 1) * m.width) m.bins - cover (j * m.width) m.bins := by
  have hlast : m.start (j + 1) ≤ m.upper.toInt := start_le_upper hlt hj
  have hinside : cover ((j + 1) * m.width) m.bins ≤ m.width := by
    unfold start at hlast
    unfold width at hlast ⊢
    omega
  rw [share, values, List.countP_map, ← Nat.min_eq_left hinside, ← countP_range_interval]
  refine List.countP_congr fun i hi => ?_
  have hv := m.toInt_of_mem_values (List.mem_map_of_mem hi)
  simp only [Function.comp_apply, decide_eq_true_eq]
  rw [bin_eq_some_iff hlt, hv, start, start]
  omega

theorem share_eq_or : m.share j = m.width / m.bins ∨ m.share j = cover m.width m.bins := by
  have hmul : (j + 1) * m.width = j * m.width + m.width := Nat.succ_mul j m.width
  have hle := cover_add_le (j * m.width) m.width m.bins_pos
  have hge := cover_add_div_le (j * m.width) m.width m.bins_pos
  have hdiv := cover_le_div_add_one m.width m.bins_pos
  rw [share_eq hlt hj, hmul]
  omega

/-- With no more bins than integers, every bin has one. -/
theorem share_pos (hbins : m.bins ≤ m.width) : 0 < m.share j := by
  have hdiv : 0 < m.width / m.bins := Nat.div_pos hbins m.bins_pos
  have hcover : 0 < cover m.width m.bins := (lt_cover_iff m.bins_pos).2 (by omega)
  rcases share_eq_or hlt hj with h | h <;> omega

/-- With no fewer bins than integers, no bin has two. -/
theorem share_le_one (hbins : m.width ≤ m.bins) : m.share j ≤ 1 := by
  have hcover : cover m.width m.bins ≤ 1 := (cover_le_iff m.bins_pos).2 (by omega)
  have hdiv : m.width / m.bins ≤ 1 := Nat.div_le_of_le_mul (by omega)
  rcases share_eq_or hlt hj with h | h <;> omega

end

/-- The bins of a range share out its integers in order, as evenly as can be. -/
structure SharesOut (m : EqualBins (Word k)) : Prop where
  mem_values : ∀ v, v ∈ m.values ↔ m.lower.toInt ≤ v ∧ v < m.upper.toInt
  nodup_values : m.values.Nodup
  width_eq : (m.width : Int) = m.upper.toInt - m.lower.toInt
  monotone : ∀ s t : Word k, m.lower.toInt ≤ s.toInt → s.toInt ≤ t.toInt →
    t.toInt < m.upper.toInt → ∃ i j, m.bin s = some i ∧ m.bin t = some j ∧ i ≤ j
  bin_lower : m.bin m.lower = some 0
  /-- The width through the number of bins, rounded down or up. -/
  share_eq_or : ∀ j < m.bins, m.share j = m.width / m.bins ∨ m.share j = cover m.width m.bins
  share_pos : m.bins ≤ m.width → ∀ j < m.bins, 0 < m.share j
  bin_last : m.bins ≤ m.width → ∀ s : Word k, s.toInt = m.upper.toInt - 1 →
    m.bin s = some (m.bins - 1)
  share_le_one : m.width ≤ m.bins → ∀ j < m.bins, m.share j ≤ 1

/-- **Bins of equal width are equal** up to one integer, in the order of the integers. -/
theorem equal_shares {m : EqualBins (Word k)} (hlt : m.lower.toInt < m.upper.toInt) :
    m.SharesOut := by
  have hlast : m.bins - 1 < m.bins := Nat.sub_one_lt_of_lt m.bins_pos
  refine
    { mem_values := fun v => m.mem_values
      nodup_values := m.nodup_values
      width_eq := Int.toNat_of_nonneg (by omega)
      monotone := fun s t hlower hle hupper => ?_
      bin_lower := ?_
      share_eq_or := fun j hj => share_eq_or hlt hj
      share_pos := fun hbins j hj => share_pos hlt hj hbins
      bin_last := fun hbins s hs => ?_
      share_le_one := fun hbins j hj => share_le_one hlt hj hbins }
  · have hs : inRange m.lower m.upper s = true :=
      inRange_iff.2 ⟨Word.le_iff.2 hlower, Word.lt_iff.2 (by omega)⟩
    have ht : inRange m.lower m.upper t = true :=
      inRange_iff.2 ⟨Word.le_iff.2 (by omega), Word.lt_iff.2 hupper⟩
    exact ⟨_, _, bin_eq_evenIndex hs, bin_eq_evenIndex ht, evenIndex_mono hs ht hle⟩
  · have hlower : inRange m.lower m.upper m.lower = true :=
      inRange_iff.2 ⟨Word.le_iff.2 (Int.le_refl _), Word.lt_iff.2 hlt⟩
    rw [bin_eq_evenIndex hlower, evenIndex_eq_div hlower, offset, Int.sub_self, Int.toNat_zero,
      Nat.zero_mul, Nat.zero_div]
  · -- the last bin has an integer, and so it starts below the upper end
    have hpos := share_pos hlt hlast hbins
    have hend := start_bins hlt
    rw [share_eq hlt hlast, Nat.sub_add_cancel m.bins_pos] at hpos
    rw [bin_eq_some_iff hlt, Nat.sub_add_cancel m.bins_pos, hend]
    refine ⟨hlast, ?_, by omega⟩
    unfold start at hend ⊢
    omega

/-- Ten integers in four bins. -/
def fourBins : EqualBins (Word .i8) := ⟨4, .ofInt (-5), .ofInt 5, by decide⟩

theorem equal_shares_fourBins :
    fourBins.SharesOut ∧ (List.range 4).map fourBins.share = [3, 2, 3, 2] :=
  ⟨equal_shares (by decide), by decide⟩

end LaneGrid.EqualBins
