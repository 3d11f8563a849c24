import LaneGrid.Samples
import LaneGrid.Proofs.Cover

/-!
# What is taken from samples

`exists_extracted`: the samples of one channel in a region whose rows are all there in full. Pixel
`column` of row `row` has the sample that lies `row` strides, `column` pixels and `channel` samples
behind the first one, also where the rows overlap.
-/

namespace LaneGrid.Samples

variable {σ : Type} {samples : Array σ} {columns stride rows start : Nat} {flat : List σ}

/-! ## Channels -/

theorem getElem?_everyNth {step : Nat} (h : 0 < step) (l : List σ) (i : Nat) :
    (everyNth step l)[i]? = l[i * step]? := by
  fun_induction everyNth step l generalizing i with
  | case1 => rfl
  | case2 x rest ih =>
    cases i with
    | zero => simp
    | succ i =>
      have hindex : (i + 1) * step = step - 1 + i * step + 1 := by
        rw [Nat.succ_mul]
        omega
      rw [List.getElem?_cons_succ, ih, List.getElem?_drop, hindex, List.getElem?_cons_succ]

theorem length_everyNth {step : Nat} (h : 0 < step) (l : List σ) :
    (everyNth step l).length = cover l.length step := by
  refine eq_of_forall_ge_iff fun i => ?_
  rw [cover_le_iff h, ← List.getElem?_eq_none_iff, ← List.getElem?_eq_none_iff,
    getElem?_everyNth h]

theorem length_channel {channels channel pixels : Nat} (h : channel < channels)
    (hflat : flat.length = pixels * channels) :
    (everyNth channels (flat.drop channel)).length = pixels := by
  have hpos : 0 < channels := by omega
  rw [length_everyNth hpos, List.length_drop, hflat]
  refine eq_of_forall_lt_iff fun i => ?_
  rw [lt_cover_iff hpos]
  constructor
  · intro hi
    exact Nat.lt_of_mul_lt_mul_right (a := channels) (by omega)
  · intro hi
    have hle : (i + 1) * channels ≤ pixels * channels := Nat.mul_le_mul_right _ hi
    rw [Nat.succ_mul] at hle
    omega

/-! ## Rows -/

theorem exists_rowsFrom (h : ∀ row < rows, start + row * stride + columns ≤ samples.size) :
    ∃ flat, rowsFrom samples columns stride rows start = some flat := by
  induction rows generalizing start with
  | zero => exact ⟨[], rfl⟩
  | succ rows ih =>
    have hfirst := h 0 (Nat.succ_pos rows)
    rw [Nat.zero_mul, Nat.add_zero] at hfirst
    have hlater : ∀ row < rows, start + stride + row * stride + columns ≤ samples.size := by
      intro row hrow
      have hrow := h (row + 1) (by omega)
      rw [Nat.succ_mul] at hrow
      omega
    obtain ⟨flat, hflat⟩ := ih hlater
    rw [rowsFrom, if_pos hfirst, hflat]
    exact ⟨_, rfl⟩

/-- The first row, and the rows behind it. -/
theorem rowsFrom_succ (h : rowsFrom samples columns stride (rows + 1) start = some flat) :
    ∃ later, rowsFrom samples columns stride rows (start + stride) = some later ∧
      start + columns ≤ samples.size ∧
      flat = (samples.extract start (start + columns)).toList ++ later := by
  rw [rowsFrom] at h
  split at h
  · rename_i hfirst
    obtain ⟨later, hlater, hflat⟩ := Option.map_eq_some_iff.1 h
    exact ⟨later, hlater, hfirst, hflat.symm⟩
  · cases h

theorem length_rowsFrom (h : rowsFrom samples columns stride rows start = some flat) :
    flat.length = rows * columns := by
  induction rows generalizing start flat with
  | zero =>
    cases h
    simp
  | succ rows ih =>
    obtain ⟨later, hlater, hfirst, rfl⟩ := rowsFrom_succ h
    rw [List.length_append, ih hlater, Array.length_toList, Array.size_extract, Nat.succ_mul]
    omega

theorem getElem?_rowsFrom (h : rowsFrom samples columns stride rows start = some flat)
    {row i : Nat} (hrow : row < rows) (hi : i < columns) :
    flat[row * columns + i]? = samples[start + row * stride + i]? := by
  induction rows generalizing start flat row with
  | zero => omega
  | succ rows ih =>
    obtain ⟨later, hlater, hfirst, rfl⟩ := rowsFrom_succ h
    have hlength : (samples.extract start (start + columns)).toList.length = columns := by
      rw [Array.length_toList, Array.size_extract]
      omega
    cases row with
    | zero =>
      rw [Nat.zero_mul, Nat.zero_mul, Nat.zero_add, Nat.add_zero,
        List.getElem?_append_left (by omega), Array.getElem?_toList, Array.getElem?_extract]
      rw [if_pos (by omega)]
    | succ row =>
      have hindex : (row + 1) * columns + i = columns + (row * columns + i) := by
        rw [Nat.succ_mul]
        omega
      rw [hindex, List.getElem?_append_right (by omega), hlength, Nat.add_sub_cancel_left,
        ih hlater (by omega)]
      congr 1
      rw [Nat.succ_mul]
      omega

/-! ## A channel of a region -/

/-- **The samples of a channel in a region**, row by row. -/
theorem exists_extracted {channels channel : Nat} (hchannel : channel < channels)
    (h : ∀ row < rows, row * stride + columns * channels ≤ samples.size) :
    ∃ flat one, region? samples (columns * channels) rows stride = some flat ∧
      channel? flat channels channel = some one ∧ one.length = columns * rows ∧
      ∀ row < rows, ∀ column < columns,
        one[row * columns + column]? =
          samples[row * stride + column * channels + channel]? := by
  obtain ⟨flat, hflat⟩ : ∃ flat, region? samples (columns * channels) rows stride = some flat := by
    refine exists_rowsFrom ?_
    intro row hrow
    rw [Nat.zero_add]
    exact h row hrow
  refine ⟨flat, _, hflat, if_pos hchannel, ?_, ?_⟩
  · refine length_channel hchannel ?_
    rw [length_rowsFrom hflat, ← Nat.mul_assoc, Nat.mul_comm rows]
  · intro row hrow column hcolumn
    have hlt : column * channels + channel < columns * channels := by
      have hle : (column + 1) * channels ≤ columns * channels := Nat.mul_le_mul_right _ hcolumn
      rw [Nat.succ_mul] at hle
      omega
    have hindex : channel + (row * columns + column) * channels =
        row * (columns * channels) + (column * channels + channel) := by
      rw [Nat.add_mul, Nat.mul_assoc]
      omega
    rw [getElem?_everyNth (by omega), List.getElem?_drop, hindex, getElem?_rowsFrom hflat hrow hlt,
      Nat.zero_add, Nat.add_assoc]

end LaneGrid.Samples
