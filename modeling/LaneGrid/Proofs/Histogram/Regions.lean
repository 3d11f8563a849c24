import LaneGrid.Histogram.Request
import LaneGrid.Proofs.Samples
import LaneGrid.Proofs.Histogram.Tiling

/-!
# Regions that are not there in full

A region that has a pixel reaches from its first sample to `Region.extent`, the end of its last
pixel. It is refused, as too large for any index or as larger than the samples, exactly when that
end lies beyond the samples (`check_refuses_iff`); exactly then some pixel of it does
(`exists_pixel_iff`), and exactly then its rows cannot be taken out (`region?_eq_none_iff`).
-/

namespace LaneGrid

variable {σ ℓ : Type}

/-! ## The extent -/

/-- Samples from the first one of a region to its last, however many there are. -/
def Region.extent (r : Region) (channels : Nat) : Nat :=
  (r.rows - 1) * r.stride + r.columns * channels

/-- The end of a pixel's samples. -/
def Region.pixelEnd (r : Region) (channels : Nat) (pixel : Pixel) : Nat :=
  pixel.row * r.stride + pixel.column * channels + channels

/-- Checking the parts on the way is as good as checking the sum. -/
theorem Region.extent?_eq (r : Region) (channels : Nat) :
    r.extent? channels = addressable (r.extent channels) := by
  unfold Region.extent? addressable Region.extent
  by_cases hskipped : (r.rows - 1) * r.stride < addressLimit
  · by_cases hrow : r.columns * channels < addressLimit
    · simp [hskipped, hrow]
    · simp only [hskipped, hrow, if_true, if_false, Option.bind_eq_bind, Option.bind_some]
      exact (if_neg (by omega)).symm
  · simp only [hskipped, if_false, Option.bind_eq_bind]
    exact (if_neg (by omega)).symm

theorem Region.isEmpty_eq_false_iff {r : Region} :
    r.isEmpty = false ↔ 0 < r.columns ∧ 0 < r.rows := by
  simp [Region.isEmpty, Nat.pos_iff_ne_zero]

theorem Region.check_eq {r : Region} (h : r.isEmpty = false) {channels samples : Nat} :
    (r.check channels samples : Except (RequestError ℓ) Unit) =
      if r.extent channels < addressLimit then
        ensure (r.extent channels ≤ samples) (.tooFewSamples r (r.extent channels) samples)
      else .error (.unaddressable r) := by
  rw [Region.check, h, Region.extent?_eq, addressable]
  by_cases hlimit : r.extent channels < addressLimit <;> simp [hlimit]

/-- The region check refuses a region. -/
def Region.Refused (r : Region) (ℓ : Type) (channels samples : Nat) : Prop :=
  (r.check channels samples : Except (RequestError ℓ) Unit) = .error (.unaddressable r) ∨
    ∃ required, (r.check channels samples : Except (RequestError ℓ) Unit) =
      .error (.tooFewSamples r required samples)

/-- **A region is refused when its end lies beyond the samples**, of which there are no more than
can be numbered. -/
theorem Region.check_refuses_iff {r : Region} (h : r.isEmpty = false) {channels samples : Nat}
    (hsamples : samples < addressLimit) :
    r.Refused ℓ channels samples ↔ samples < r.extent channels := by
  unfold Region.Refused
  rw [Region.check_eq h]
  by_cases hlimit : r.extent channels < addressLimit
  · by_cases hle : r.extent channels ≤ samples
    · simp [hlimit, ensure, hle]
    · simp [hlimit, ensure, hle, Nat.lt_of_not_le hle]
  · simp [hlimit]
    omega

/-! ## Pixels and rows -/

/-- **The last pixel reaches furthest.** -/
theorem Region.exists_pixel_iff {r : Region} (h : r.isEmpty = false) {channels samples : Nat} :
    (∃ pixel ∈ r.pixels, samples < r.pixelEnd channels pixel) ↔ samples < r.extent channels := by
  obtain ⟨hcolumns, hrows⟩ := Region.isEmpty_eq_false_iff.1 h
  constructor
  · rintro ⟨pixel, hpixel, hlt⟩
    obtain ⟨hrow, hcolumn⟩ := mem_pixels.1 hpixel
    have h1 : pixel.row * r.stride ≤ (r.rows - 1) * r.stride :=
      Nat.mul_le_mul_right _ (by omega)
    have h2 : (pixel.column + 1) * channels ≤ r.columns * channels :=
      Nat.mul_le_mul_right _ hcolumn
    rw [Nat.succ_mul] at h2
    unfold Region.pixelEnd at hlt
    unfold Region.extent
    omega
  · intro hlt
    refine ⟨⟨r.rows - 1, r.columns - 1⟩, mem_pixels.2 ⟨?_, ?_⟩, ?_⟩
    · exact Nat.sub_lt hrows Nat.one_pos
    · exact Nat.sub_lt hcolumns Nat.one_pos
    · have hlast : (r.columns - 1) * channels + channels = r.columns * channels := by
        rw [← Nat.succ_mul, Nat.succ_eq_add_one, Nat.sub_add_cancel hcolumns]
      unfold Region.extent at hlt
      simp only [Region.pixelEnd]
      omega

/-- A region that passes the check ends within the samples. -/
theorem Region.extent_le_of_check {r : Region} (hempty : r.isEmpty = false) {channels samples : Nat}
    (h : (r.check channels samples : Except (RequestError ℓ) Unit) = .ok ()) :
    r.extent channels ≤ samples := by
  rw [Region.check_eq hempty, ensure] at h
  split at h
  · split at h
    · assumption
    · cases h
  · cases h

/-- The pixels of a region that passes the check are all there. -/
theorem Region.pixelEnd_le {r : Region} {channels samples : Nat}
    (h : (r.check channels samples : Except (RequestError ℓ) Unit) = .ok ()) {pixel : Pixel}
    (hpixel : pixel ∈ r.pixels) : r.pixelEnd channels pixel ≤ samples := by
  have hempty : r.isEmpty = false := by
    obtain ⟨hrow, hcolumn⟩ := mem_pixels.1 hpixel
    exact Region.isEmpty_eq_false_iff.2 ⟨by omega, by omega⟩
  have hle := Region.extent_le_of_check hempty h
  by_contra hlt
  have hend := (Region.exists_pixel_iff hempty).1 ⟨pixel, hpixel, Nat.lt_of_not_le hlt⟩
  omega

theorem Samples.rowsFrom_isSome_iff {samples : Array σ} {columns stride rows start : Nat} :
    (Samples.rowsFrom samples columns stride rows start).isSome ↔
      ∀ row < rows, start + row * stride + columns ≤ samples.size := by
  constructor
  · intro h row hrow
    induction rows generalizing start row with
    | zero => omega
    | succ rows ih =>
      obtain ⟨flat, hflat⟩ := Option.isSome_iff_exists.1 h
      obtain ⟨later, hlater, hfirst, -⟩ := Samples.rowsFrom_succ hflat
      cases row with
      | zero => simpa using hfirst
      | succ row =>
        have hle := ih (Option.isSome_iff_exists.2 ⟨later, hlater⟩) row (by omega)
        rw [Nat.succ_mul]
        omega
  · intro h
    exact Option.isSome_iff_exists.2 (Samples.exists_rowsFrom h)

/-- **Rows are taken out unless one of them ends beyond the samples.** -/
theorem Region.region?_eq_none_iff {r : Region} (h : r.isEmpty = false) {channels : Nat}
    {samples : Array σ} :
    Samples.region? samples (r.columns * channels) r.rows r.stride = none ↔
      samples.size < r.extent channels := by
  have hrows := (Region.isEmpty_eq_false_iff.1 h).2
  have hall : (∀ row < r.rows, 0 + row * r.stride + r.columns * channels ≤ samples.size) ↔
      r.extent channels ≤ samples.size := by
    unfold Region.extent
    constructor
    · intro hle
      have := hle (r.rows - 1) (by omega)
      omega
    · intro hle row hrow
      have : row * r.stride ≤ (r.rows - 1) * r.stride := Nat.mul_le_mul_right _ (by omega)
      omega
  rw [← Option.not_isSome_iff_eq_none, Samples.region?, Samples.rowsFrom_isSome_iff, hall,
    Nat.not_le]

end LaneGrid
