import LaneGrid.Proofs.Histogram.Counts
import LaneGrid.Proofs.Samples

/-!
# Channels on their own

A call on many channels and padded rows counts every channel as if there were nothing else.

* `Request.alone?`: the request for one channel, on its samples taken out of the region row by row
  and with its levels only.
* `samples_of_region`, `samples_of_linear`: both requests read the same samples in the same order.
* `accept_linear`: the second one is accepted when it has storage and counters enough.

`channel_alone`: both leave the same in the counters of the channel's bins, with any two
configurations, and so does every other call with these samples and these bins for a channel.
-/

namespace LaneGrid

variable {σ ℓ : Type} {k : IntKind}

/-! ## Requests for one channel -/

/-- One channel of these levels, for samples of that channel only. -/
def Binning.alone? (b : Binning ℓ) (channel : Nat) (storage : Option Nat) (samples : Array σ) :
    Option (Request σ ℓ) :=
  match b with
  | .even levels lower upper => do
    return .evenLinear storage samples (← levels[channel]?) (← lower[channel]?) (← upper[channel]?)
  | .range levels => do return .rangeLinear storage samples (← levels[channel]?)

/-- The request for one channel of a region. -/
def Request.alone? (r : Request σ ℓ) (region : Region) (channel : Nat) (storage : Option Nat) :
    Option (Request σ ℓ) := do
  let flat ←
    Samples.region? r.samples (region.columns * r.channels) region.rows region.stride
  let samples ← Samples.channel? flat r.channels channel
  r.binning.alone? channel storage samples.toArray

/-! ## Samples -/

theorem map_range_mul {β : Type} (x y : Nat) (f : Nat → β) :
    (List.range (x * y)).map f =
      (List.range y).flatMap fun j => (List.range x).map fun i => f (j * x + i) := by
  simp only [List.map_eq_flatMap]
  exact flatMap_range_mul x y fun i => [f i]

theorem map_getElem?_range (l : List σ) : (List.range l.length).map (l[·]?) = l.map some := by
  refine List.ext_getElem (by simp) ?_
  intro i h h'
  have hi : i < l.length := by simpa using h'
  simp [hi]

theorem samples_of_region {r : Request σ ℓ} {region : Region} {channel : Nat} {one : List σ}
    (hlength : one.length = region.columns * region.rows)
    (h : ∀ row < region.rows, ∀ column < region.columns, one[row * region.columns + column]? =
      r.samples[row * region.stride + column * r.channels + channel]?) :
    region.pixels.map (r.sample? region channel) = one.map some := by
  rw [← map_getElem?_range, hlength, map_range_mul, Region.pixels, List.map_flatMap]
  refine List.flatMap_congr ?_
  intro row hrow
  rw [List.map_map]
  refine List.map_congr_left ?_
  intro column hcolumn
  exact (h row (List.mem_range.1 hrow) column (List.mem_range.1 hcolumn)).symm

theorem samples_of_linear {binning : Binning ℓ} {storage : Option Nat} (one : List σ) :
    (Region.pixels ⟨one.length, 1, one.length⟩).map
      (Request.sample? ⟨1, one.toArray, .linear, binning, storage⟩
        ⟨one.length, 1, one.length⟩ 0) = one.map some := by
  refine samples_of_region (by simp) ?_
  intro row hrow column hcolumn
  simp

/-! ## Acceptance -/

section
variable [Level ℓ] {format : SampleFormat σ ℓ}

/-- Levels that make bins for a channel make the same ones for it alone. -/
theorem Binning.exists_alone {b : Binning ℓ} {channel : Nat} {m : Mapper σ}
    (h : b.mapper? format.toLevel channel = some m) (storage : Option Nat) (samples : Array σ) :
    ∃ binning, b.alone? channel storage samples = some ⟨1, samples, .linear, binning, storage⟩ ∧
      binning.mappers 1 format.toLevel = .ok [m] := by
  cases b with
  | even levels lower upper =>
    obtain ⟨e, hlevels, hlower, hupper, rfl⟩ := mapper?_even.1 h
    have hbuild : EqualBins.build (e.bins + 1) e.lower e.upper = .ok e :=
      EqualBins.build_ok.2 ⟨rfl, rfl, rfl⟩
    refine ⟨.even [e.bins + 1] [e.lower] [e.upper], ?_, ?_⟩
    · simp [alone?, hlevels, hlower, hupper, Request.evenLinear]
    · simp [mappers, ensure_of, hbuild, liftLevels, ok_bind]
  | range levels =>
    obtain ⟨e, hlevels, rfl⟩ := mapper?_range.1 h
    have hbuild : BoundaryBins.build e.boundaries = .ok e := BoundaryBins.build_ok.2 rfl
    refine ⟨.range [e.boundaries], ?_, ?_⟩
    · simp [alone?, hlevels, Request.rangeLinear]
    · simp [mappers, ensure_of, hbuild, liftLevels, ok_bind]

theorem accept_linear {binning : Binning ℓ} {samples : Array σ} {provided counters : Nat}
    {m : Mapper σ} (hmappers : binning.mappers 1 format.toLevel = .ok [m])
    (hprovided : storageBytes ≤ provided) (hbins : m.bins ≤ counters)
    (hsize : samples.size < addressLimit) :
    Request.accept ⟨1, samples, .linear, binning, some provided⟩ format [counters] =
      .ok (.counting ⟨samples.size, 1, samples.size⟩ [m]) := by
  have hcounters : (checkCounters 0 [counters] [m] : Except (RequestError ℓ) Unit) = .ok () := by
    rw [checkCounters, ensure_of hbins]
    rfl
  have hcheck : (Region.check ⟨samples.size, 1, samples.size⟩ 1 samples.size :
      Except (RequestError ℓ) Unit) = .ok () := by
    have hextent : Region.extent? ⟨samples.size, 1, samples.size⟩ 1 = some samples.size := by
      have hpos : 0 < addressLimit := by decide
      simp [Region.extent?, addressable, hsize, hpos]
    rw [Region.check, hextent]
    simp [ensure_of]
  have hstride : samples.size * format.bytes / format.bytes = samples.size :=
    Nat.mul_div_cancel _ format.bytes_pos
  have hframe : (Extent.linear.frame 1 samples.size format.bytes : Except (RequestError ℓ) _) =
      .ok (samples.size, 1, samples.size * format.bytes) := by
    simp [Extent.frame, ensure_of, Nat.mod_one]
  have hrows : samples.size * format.bytes % format.bytes = 0 := Nat.mul_mod_left _ _
  simp only [Request.accept, hframe, ok_bind, List.length_singleton, hmappers,
    ensure_of hrows, ensure_of hprovided, hcounters, hstride, hcheck]
  rfl

/-! ## Calls -/

/-- The first counters of two channels are there, and are the same. -/
def SameBelow (bins : Nat) (counters : Counters k) (channel : Nat) (counters' : Counters k)
    (channel' : Nat) : Prop :=
  ∀ bin < bins, ∃ w, counters.cell channel bin = some w ∧ counters'.cell channel' bin = some w

variable {r : Request σ ℓ} {memory : Memory k} {c : Config} {active : Nat}

/-- Whatever strategy it chooses, a call counts what falls into the bins of a channel. -/
theorem cell_call_pixelCount {region : Region} {mappers : List (Mapper σ)} {channel : Nat}
    {m : Mapper σ}
    (haccept : r.accept format (memory.sizes active) = .ok (.counting region mappers))
    (hwidth : k.bits ≤ 32 ∨ region.columns * region.rows < 2 ^ 32)
    (hm : mappers[channel]? = some m) {bin : Nat} (hbin : bin < m.bins) :
    (memory.call c format r active).1.counters.cell channel bin =
      some (.ofInt (r.pixelCount region m channel bin)) := by
  obtain ⟨w, hw⟩ := (accept_counting haccept).exists_cell hm hbin
  rw [cell_call haccept hm, hw, Option.map_some, if_pos hbin, Pass.ofInt_counted rfl hwidth,
    hitCount_pass hm]

/-- Calls that read the same samples, with the same bins, leave the same counters. -/
theorem sameBelow_of_samples {r' : Request σ ℓ} {memory' : Memory k} {c' : Config} {active' : Nat}
    {region region' : Region} {mappers mappers' : List (Mapper σ)} {channel channel' : Nat}
    {m : Mapper σ} {samples : List σ}
    (haccept : r.accept format (memory.sizes active) = .ok (.counting region mappers))
    (haccept' : r'.accept format (memory'.sizes active') = .ok (.counting region' mappers'))
    (hwidth : region.columns * region.rows < 2 ^ 32)
    (hm : mappers[channel]? = some m) (hm' : mappers'[channel']? = some m)
    (hsamples : region.pixels.map (r.sample? region channel) = samples.map some)
    (hsamples' : region'.pixels.map (r'.sample? region' channel') = samples.map some) :
    SameBelow m.bins (memory.call c format r active).1.counters channel
      (memory'.call c' format r' active').1.counters channel' := by
  have hwidth' : region'.columns * region'.rows < 2 ^ 32 := by
    have hlength := congrArg List.length (hsamples'.trans hsamples.symm)
    simp only [List.length_map, length_pixels] at hlength
    omega
  intro bin hbin
  refine ⟨_, cell_call_pixelCount haccept (.inr hwidth) hm hbin, ?_⟩
  rw [cell_call_pixelCount haccept' (.inr hwidth') hm' hbin, pixelCount_eq hsamples,
    pixelCount_eq hsamples']

/-- The rows of an accepted region are there in full. -/
theorem Accepted.row_le {counters : List Nat} {region : Region} {mappers : List (Mapper σ)}
    (h : Accepted r format counters region mappers) (hcolumns : 0 < region.columns)
    (hchannels : 0 < r.channels) {row : Nat} (hrow : row < region.rows) :
    row * region.stride + region.columns * r.channels ≤ r.samples.size := by
  -- the last sample of the row's last pixel
  have hlast := h.sample_lt row (region.columns - 1) (r.channels - 1) hrow (by omega) (by omega)
  have hrow : region.columns * r.channels = (region.columns - 1) * r.channels + r.channels := by
    rw [← Nat.succ_mul, Nat.succ_eq_add_one, Nat.sub_add_cancel hcolumns]
  omega

/-- The request for a channel of an accepted region, and the samples that it has. -/
theorem Accepted.exists_alone {counters : List Nat} {region : Region} {mappers : List (Mapper σ)}
    (h : Accepted r format counters region mappers) (hcolumns : 0 < region.columns) {channel : Nat}
    {m : Mapper σ} (hm : mappers[channel]? = some m) (storage : Option Nat) :
    ∃ (one : List σ) (binning : Binning ℓ), r.alone? region channel storage =
        some ⟨1, one.toArray, .linear, binning, storage⟩ ∧
      binning.mappers 1 format.toLevel = .ok [m] ∧ one.length = region.columns * region.rows ∧
      region.pixels.map (r.sample? region channel) = one.map some := by
  have hchannel : channel < r.channels := by
    have hlt := (List.getElem?_eq_some_iff.1 hm).1
    have hle := h.active_le
    rw [h.length_eq] at hlt
    omega
  have hrows : ∀ row < region.rows,
      row * region.stride + region.columns * r.channels ≤ r.samples.size := by
    intro row hrow
    exact h.row_le hcolumns (by omega) hrow
  obtain ⟨flat, one, hflat, hone, hlength, hget⟩ := Samples.exists_extracted hchannel hrows
  obtain ⟨binning, halone, hmappers⟩ :=
    Binning.exists_alone (h.mapper_eq channel m hm) storage one.toArray
  refine ⟨one, binning, ?_, hmappers, hlength, samples_of_region hlength hget⟩
  rw [Request.alone?, hflat, Option.bind_eq_bind, Option.bind_some, hone]
  exact halone

/-- A call that counts has a mapper for every active channel. -/
theorem exists_mapper (hreal : r.storage.isSome)
    (hok : (memory.call c format r active).2.result = .ok ()) {channel : Nat}
    (hchannel : channel < min active memory.counters.size) :
    ∃ mappers m, r.accept format (memory.sizes active) = .ok (.counting (r.region format) mappers) ∧
      mappers[channel]? = some m ∧ r.binning.mapper? format.toLevel channel = some m := by
  obtain ⟨region, mappers, haccept⟩ := accept_of_ok hreal hok
  have h := accept_counting haccept
  obtain rfl := h.region_eq
  have hlt : channel < mappers.length := by rwa [h.length_eq, length_sizes]
  have hm := List.getElem?_eq_getElem hlt
  exact ⟨mappers, _, haccept, hm, h.mapper_eq channel _ hm⟩

/-- **A channel is counted as if it were alone**: a call leaves in the counters of its bins what the
call for that channel alone leaves, and what every call leaves that has these samples and these bins
for some channel. -/
theorem channel_alone (hreal : r.storage.isSome)
    (hok : (memory.call c format r active).2.result = .ok ())
    (hcolumns : 0 < (r.region format).columns)
    (hwidth : (r.region format).columns * (r.region format).rows < 2 ^ 32)
    {channel : Nat} (hchannel : channel < min active memory.counters.size)
    {provided : Nat} (hprovided : storageBytes ≤ provided) :
    ∃ m alone, r.binning.mapper? format.toLevel channel = some m ∧
      r.alone? (r.region format) channel (some provided) = some alone ∧
      (∀ (c' : Config) (memory' : Memory k) (counters : Nat), memory'.sizes 1 = [counters] →
        m.bins ≤ counters →
          (memory'.call c' format alone 1).2.result = .ok () ∧
          SameBelow m.bins (memory.call c format r active).1.counters channel
            (memory'.call c' format alone 1).1.counters 0) ∧
      ∀ (r' : Request σ ℓ) (c' : Config) (memory' : Memory k) (active' channel' : Nat),
        r'.storage.isSome → (memory'.call c' format r' active').2.result = .ok () →
        channel' < min active' memory'.counters.size →
        r'.binning.mapper? format.toLevel channel' = some m →
        (r'.region format).pixels.map (r'.sample? (r'.region format) channel') =
          (r.region format).pixels.map (r.sample? (r.region format) channel) →
        SameBelow m.bins (memory.call c format r active).1.counters channel
          (memory'.call c' format r' active').1.counters channel' := by
  obtain ⟨mappers, m, haccept, hm, hmapper⟩ := exists_mapper hreal hok hchannel
  obtain ⟨one, binning, halone, hmappers, hlength, hsamples⟩ :=
    (accept_counting haccept).exists_alone hcolumns hm (some provided)
  refine ⟨m, _, hmapper, halone, ?_, ?_⟩
  · intro c' memory' counters hsizes hcounters
    have hsize : one.toArray.size < addressLimit := by
      rw [List.size_toArray, hlength]
      exact Nat.lt_trans hwidth (by decide)
    have haccept' := accept_linear hmappers hprovided hcounters hsize
    rw [← hsizes] at haccept'
    constructor
    · rw [Memory.call, haccept']
    · exact sameBelow_of_samples haccept haccept' hwidth hm rfl hsamples (samples_of_linear one)
  · intro r' c' memory' active' channel' hreal' hok' hchannel' hmapper' hsamples'
    obtain ⟨mappers', m', haccept', hm', hmapper''⟩ := exists_mapper hreal' hok' hchannel'
    obtain rfl : m = m' := Option.some.inj (hmapper'.symm.trans hmapper'')
    exact sameBelow_of_samples haccept haccept' hwidth hm hm' hsamples (hsamples'.trans hsamples)

end

/-! ## Three requests -/

/-- The first channel of `paddedRequest`, now the second one and with nothing between the rows. -/
def denseRequest : Request (Word .u8) (Word .u8) :=
  .multiRangeRegion 2 (some 4)
    #[.ofInt 50, .ofInt 0, .ofInt 50, .ofInt 1, .ofInt 50, .ofInt 2, .ofInt 50, .ofInt 3] 2 2 4
    [#[.ofInt 0, .ofInt 10], #[.ofInt 0, .ofInt 2, .ofInt 4]]

/-- One block of eight pixels, which adds straight into the counters. -/
def wideConfig : Config := ⟨⟨4, 2, 1, 0, 1, .silent⟩, by decide, by decide, by decide⟩

def twoCounters : Memory .i32 := ⟨#[#[.ofInt 5, .ofInt 5]], 0⟩

def threeCounters : Memory .i32 := ⟨#[#[.ofInt 5], #[.ofInt 5, .ofInt 5]], 0⟩

theorem channel_alone_padded :
    (∃ alone, paddedRequest.alone? ⟨2, 2, 7⟩ 0 (some 4) = some alone ∧
      (twoCounters.call wideConfig byteFormat alone 1).2.result = .ok () ∧
      SameBelow 2 (usedMemory.call smallConfig byteFormat paddedRequest 2).1.counters 0
        (twoCounters.call wideConfig byteFormat alone 1).1.counters 0) ∧
    SameBelow 2 (usedMemory.call smallConfig byteFormat paddedRequest 2).1.counters 0
      (threeCounters.call wideConfig byteFormat denseRequest 2).1.counters 1 := by
  have hok : (usedMemory.call smallConfig byteFormat paddedRequest 2).2.result = .ok () := rfl
  obtain ⟨m, alone, hm, halone, hsingle, hothers⟩ :=
    channel_alone rfl hok Nat.two_pos (by decide) (by decide : 0 < 2) (Nat.le_refl 4)
  obtain rfl : lowBins.mapper id = m := Option.some.inj hm
  constructor
  · obtain ⟨hresult, hsame⟩ := hsingle wideConfig twoCounters 2 rfl (Nat.le_refl 2)
    exact ⟨alone, halone, hresult, hsame⟩
  · exact hothers denseRequest wideConfig threeCounters 2 1 rfl rfl (by decide) rfl rfl

end LaneGrid
