import LaneGrid.Proofs.Bins.FloatOrder
import LaneGrid.Proofs.Histogram.Channels

/-!
# No sample is lost or counted twice

`counters_conserve`: after a counting call, the counters of a channel's bins add up to the pixels of
the region whose sample is in the channel's range, and each such sample is in exactly one bin
(`Request.Conserved`).

The range of a channel goes from its lower end to its upper one, or from its first boundary to its
last (`Binning.ends?`). A NaN is in no range, and with the upper end at or below the lower one
nothing is. All levels are ordered as this asks: words, and floating-point numbers of both formats.
-/

namespace LaneGrid

variable {σ ℓ β : Type} {k : IntKind}

/-! ## Sums over bins -/

/-- What falls into some bin falls into one of them. -/
theorem sum_countP (f : β → Option Nat) {n : Nat} (hf : ∀ x j, f x = some j → j < n) (l : List β) :
    ((List.range n).map fun j => l.countP (f · = some j)).sum = l.countP fun x => (f x).isSome := by
  change ∑ j ∈ Finset.range n, l.countP (f · = some j) = _
  induction l with
  | nil => simp
  | cons x l ih =>
    simp only [List.countP_cons, Finset.sum_add_distrib, ih, decide_eq_true_eq]
    congr 1
    cases hx : f x with
    | none => simp
    | some j => simp [hf x j hx]

/-- Counters of 32 bits and more hold every count below `2 ^ 31`. -/
theorem Word.toInt_ofInt_natCast (hk : 32 ≤ k.bits) {n : Nat} (hn : n < 2 ^ 31) :
    (Word.ofInt n : Word k).toInt = n := by
  have hleast : k.least ≤ 0 := by
    unfold IntKind.least
    split <;> omega
  have hlimit : (2 ^ 31 : Nat) ≤ k.limit := by
    unfold IntKind.limit
    rw [Int.ofNat_le]
    exact Nat.pow_le_pow_right Nat.two_pos (by split <;> omega)
  exact Word.toInt_ofInt (by omega) (by omega)

/-- The first counters of a channel, added up. -/
theorem sum_counters {counters : Array (Word k)} {count : Nat → Nat} {n : Nat}
    (h : ∀ bin < n, ∃ w, counters[bin]? = some w ∧ w.toInt = count bin) :
    ((counters.toList.take n).map Word.toInt).sum = ((List.range n).map count).sum := by
  have hlist : (counters.toList.take n).map Word.toInt =
      ((List.range n).map count).map (Nat.cast : Nat → Int) := by
    refine List.ext_getElem? fun bin => ?_
    by_cases hbin : bin < n
    · obtain ⟨w, hw, hcount⟩ := h bin hbin
      simp [hbin, hw, hcount]
    · simp [hbin]
  rw [hlist, ← Nat.cast_list_sum]

/-! ## The range of a channel -/

/-- The lower and the upper end of what the bins of a channel cover. -/
def Binning.ends? (b : Binning ℓ) (channel : Nat) : Option (ℓ × ℓ) :=
  match b with
  | .even _ lower upper => do return (← lower[channel]?, ← upper[channel]?)
  | .range levels => do
    let boundaries ← levels[channel]?
    return (← boundaries[0]?, ← boundaries.back?)

variable [Level ℓ]

/-- The samples that have a bin are those in the range of the channel. -/
theorem Binning.exists_ends {b : Binning ℓ} {toLevel : σ → ℓ} {channel : Nat} {m : Mapper σ}
    (hlinear : ∀ levels, b = .range levels → LinearLevel ℓ)
    (h : b.mapper? toLevel channel = some m) :
    ∃ lower upper, b.ends? channel = some (lower, upper) ∧
      ∀ sample, (m.bin sample).isSome = inRange lower upper (toLevel sample) := by
  cases b with
  | even levels lower upper =>
    obtain ⟨e, -, hlower, hupper, rfl⟩ := Binning.mapper?_even.1 h
    refine ⟨e.lower, e.upper, ?_, fun sample => e.isSome_bin _⟩
    simp [Binning.ends?, hlower, hupper]
  | range levels =>
    obtain ⟨e, hlevels, rfl⟩ := Binning.mapper?_range.1 h
    have : LinearLevel ℓ := hlinear levels rfl
    have hpos : 0 < e.boundaries.size := Nat.lt_of_lt_of_le Nat.two_pos e.two_le
    have hfirst : e.boundaries[0]? = some e.boundaries[0] := Array.getElem?_eq_getElem hpos
    have hlast : e.boundaries.back? = some e.boundaries[e.boundaries.size - 1] := by
      rw [Array.back?_eq_getElem?]
      exact Array.getElem?_eq_getElem (by omega)
    refine ⟨_, _, ?_, fun sample => e.isSome_bin hfirst hlast _⟩
    simp [Binning.ends?, hlevels, hfirst, hlast]

/-! ## Calls -/

/-- A pixel's sample of a channel is in a range. -/
def Request.sampleInRange (r : Request σ ℓ) (format : SampleFormat σ ℓ) (channel : Nat)
    (lower upper : ℓ) (pixel : Pixel) : Bool :=
  (r.sample? (r.region format) channel pixel).any fun sample =>
    inRange lower upper (format.toLevel sample)

/-- The counters of a channel account for the samples of the region: each in the range from `lower`
to `upper` is in one bin of the channel's mapper `m`, and no other is in any. -/
structure Request.Conserved (r : Request σ ℓ) (format : SampleFormat σ ℓ) (channel : Nat)
    (after : Counters k) (m : Mapper σ) (lower upper : ℓ) : Prop where
  mapper_eq : r.binning.mapper? format.toLevel channel = some m
  ends_eq : r.binning.ends? channel = some (lower, upper)
  sampled : ∀ pixel ∈ (r.region format).pixels,
    ∃ sample, r.sample? (r.region format) channel pixel = some sample
  one_bin : ∀ sample, inRange lower upper (format.toLevel sample) = true →
    ∃! bin, bin < m.bins ∧ m.bin sample = some bin
  no_bin : ∀ sample, ¬inRange lower upper (format.toLevel sample) = true → m.bin sample = none
  /-- A NaN has no bin. -/
  unordered : ∀ sample, Unordered (format.toLevel sample) → m.bin sample = none
  /-- With the upper end at or below the lower one, no sample has a bin. -/
  inverted : Level.le upper lower = true → ∀ sample, m.bin sample = none
  counted : ∀ bin < m.bins, ∃ w, after.cell channel bin = some w ∧
    w.toInt = r.pixelCount (r.region format) m channel bin
  total : ∃ counters, after[channel]? = some counters ∧
    ((counters.toList.take m.bins).map Word.toInt).sum =
      ((r.region format).pixels.countP (r.sampleInRange format channel lower upper) : Nat)

variable {r : Request σ ℓ} {format : SampleFormat σ ℓ} {memory : Memory k} {c : Config}
  {active channel : Nat}

/-- The bins of a channel share out the pixels in its range. -/
theorem Request.sum_pixelCount {m : Mapper σ} {lower upper : ℓ}
    (h : ∀ sample, (m.bin sample).isSome = inRange lower upper (format.toLevel sample)) :
    ((List.range m.bins).map (r.pixelCount (r.region format) m channel)).sum =
      (r.region format).pixels.countP (r.sampleInRange format channel lower upper) := by
  unfold Request.pixelCount
  rw [sum_countP]
  · refine List.countP_congr fun pixel _ => ?_
    unfold Request.sampleInRange
    cases r.sample? (r.region format) channel pixel with
    | none => rfl
    | some sample => simp [h sample]
  · intro pixel bin hbin
    obtain ⟨sample, -, hbin⟩ := Option.bind_eq_some_iff.1 hbin
    exact m.bin_lt hbin

/-- **A counting call counts every sample in range once, and no other.** -/
theorem counters_conserve [OrderedLevel ℓ] (hreal : r.storage.isSome)
    (hok : (memory.call c format r active).2.result = .ok ()) (hk : 32 ≤ k.bits)
    (hwidth : (r.region format).columns * (r.region format).rows < 2 ^ 31)
    (hlinear : ∀ levels, r.binning = .range levels → LinearLevel ℓ)
    (hchannel : channel < min active memory.counters.size) :
    ∃ m lower upper, r.Conserved format channel (memory.call c format r active).1.counters m lower
      upper := by
  obtain ⟨mappers, m, haccept, hm, hmapper⟩ := exists_mapper hreal hok hchannel
  obtain ⟨lower, upper, hends, hrange⟩ := Binning.exists_ends hlinear hmapper
  have hcell : ∀ bin < m.bins, ∃ w,
      (memory.call c format r active).1.counters.cell channel bin = some w ∧
        w.toInt = r.pixelCount (r.region format) m channel bin := by
    intro bin hbin
    refine ⟨_, cell_call_pixelCount haccept (.inr (by omega)) hm hbin, ?_⟩
    refine Word.toInt_ofInt_natCast hk (Nat.lt_of_le_of_lt List.countP_le_length ?_)
    rwa [length_pixels]
  have hno_bin : ∀ sample, ¬inRange lower upper (format.toLevel sample) = true →
      m.bin sample = none := by
    intro sample hout
    rwa [← hrange, Option.not_isSome_iff_eq_none] at hout
  have hone_bin : ∀ sample, inRange lower upper (format.toLevel sample) = true →
      ∃! bin, bin < m.bins ∧ m.bin sample = some bin := by
    intro sample hin
    rw [← hrange] at hin
    obtain ⟨bin, hbin⟩ := Option.isSome_iff_exists.1 hin
    refine ⟨bin, ⟨m.bin_lt hbin, hbin⟩, ?_⟩
    rintro bin' ⟨-, hbin'⟩
    rw [hbin] at hbin'
    exact (Option.some.inj hbin').symm
  have htotal : ∃ counters, (memory.call c format r active).1.counters[channel]? = some counters ∧
      ((counters.toList.take m.bins).map Word.toInt).sum =
        ((r.region format).pixels.countP (r.sampleInRange format channel lower upper) : Nat) := by
    have hsize : channel < (memory.call c format r active).1.counters.size := by
      rw [call_counting haccept, size_replay]
      omega
    refine ⟨_, Array.getElem?_eq_getElem hsize, ?_⟩
    rw [← Request.sum_pixelCount hrange]
    refine sum_counters fun bin hbin => ?_
    obtain ⟨w, hw, hcount⟩ := hcell bin hbin
    rw [Counters.cell, Array.getElem?_eq_getElem hsize, Option.bind_some] at hw
    exact ⟨w, hw, hcount⟩
  have hactive : channel < (memory.sizes active).length := by rwa [length_sizes]
  refine ⟨m, lower, upper, ?_⟩
  exact
    { mapper_eq := hmapper
      ends_eq := hends
      sampled := fun pixel => (accept_counting haccept).exists_sample hactive
      one_bin := hone_bin
      no_bin := hno_bin
      unordered := fun sample h => hno_bin sample (inRange_of_unordered h lower upper)
      inverted := fun h sample => hno_bin sample (inRange_of_inverted h _)
      counted := hcell
      total := htotal }

/-- Counts a NaN and three zeros between zero and one. -/
def nanRequest : Request Float32 Float32 :=
  .evenLinear (some 4) #[.ofBits 0x7fc00000, .ofNat 0, .ofNat 0, .ofNat 0] 3 (.ofNat 0) (.ofNat 1)

/-- Counts four zeros from one down to zero, in the wider format. -/
def invertedRequest : Request Float32 Float :=
  .evenLinear (some 4) (Array.replicate 4 (.ofNat 0)) 3 (.ofNat 1) (.ofNat 0)

def floatFormat : SampleFormat Float32 Float32 := ⟨4, Nat.succ_pos 3, id⟩

def widenedFloatFormat : SampleFormat Float32 Float := ⟨4, Nat.succ_pos 3, Float32.toFloat⟩

/-- All four pixels of words are in the range of the first channel. Of the floating-point samples,
the NaN has no bin, and between ends the wrong way round no sample has one. -/
theorem counters_conserve_padded :
    (∃ m lower upper, paddedRequest.Conserved byteFormat 0
      (usedMemory.call smallConfig byteFormat paddedRequest 2).1.counters m lower upper) ∧
    paddedRequest.binning.ends? 0 = some (.ofInt 0, .ofInt 4) ∧
    (paddedRequest.region byteFormat).pixels.countP
      (paddedRequest.sampleInRange byteFormat 0 (.ofInt 0) (.ofInt 4)) = 4 ∧
    (∃ m lower upper, nanRequest.Conserved floatFormat 0
      (usedMemory.call smallConfig floatFormat nanRequest 1).1.counters m lower upper ∧
      m.bin (.ofBits 0x7fc00000) = none) ∧
    ∃ m lower upper, invertedRequest.Conserved widenedFloatFormat 0
      (usedMemory.call smallConfig widenedFloatFormat invertedRequest 1).1.counters m lower upper ∧
      ∀ sample, m.bin sample = none := by
  have hnan : ∃ m lower upper, nanRequest.Conserved floatFormat 0
      (usedMemory.call smallConfig floatFormat nanRequest 1).1.counters m lower upper :=
    counters_conserve rfl rfl (by decide) (by decide) nofun (by decide)
  have hinverted : ∃ m lower upper, invertedRequest.Conserved widenedFloatFormat 0
      (usedMemory.call smallConfig widenedFloatFormat invertedRequest 1).1.counters m lower upper :=
    counters_conserve rfl rfl (by decide) (by decide) nofun (by decide)
  refine ⟨counters_conserve rfl rfl (by decide) (by decide) (fun _ _ => inferInstance) (by decide),
    rfl, by decide, ?_, ?_⟩
  · obtain ⟨m, lower, upper, h⟩ := hnan
    have hunordered : Unordered (floatFormat.toLevel (.ofBits 0x7fc00000)) :=
      Float32.unordered_iff.2 (by decide)
    exact ⟨m, lower, upper, h, h.unordered _ hunordered⟩
  · obtain ⟨m, lower, upper, h⟩ := hinverted
    obtain ⟨rfl, rfl⟩ : .ofNat 1 = lower ∧ .ofNat 0 = upper := by
      simpa [invertedRequest, Request.evenLinear, Binning.ends?] using h.ends_eq
    exact ⟨m, _, _, h, h.inverted (by decide)⟩

end LaneGrid
