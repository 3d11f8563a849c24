import LaneGrid.Proofs.Histogram.Acceptance
import LaneGrid.Proofs.Histogram.Launches

/-!
# Counting calls count

`counters_of_call`: after a counting call, every counter of an active channel that stands for a bin
holds how many pixels of the region fall into that bin, whatever the counters held and whichever way
the call counted, modulo the width of the counters. This is what the channel's mapper counts in the
region's samples one by one. The counters beyond the bins keep what they held.

Counters of more than 32 bits need fewer than `2 ^ 32` pixels for this, since a block counts in
words of 32 bits (`LaneGrid.Proofs.Histogram.Strategies`).
-/

namespace LaneGrid

variable {σ ℓ : Type} {k : IntKind}

/-! ## Counting one by one -/

theorem getElem?_foldl_count (m : Mapper σ) (bin : Nat) : ∀ (samples : List σ) (counts : Array Nat),
    (samples.foldl (fun counts sample =>
      match m.bin sample with
      | some index => counts.modify index (· + 1)
      | none => counts) counts)[bin]? =
      counts[bin]?.map (· + samples.countP (m.bin · = some bin))
  | [], counts => by simp
  | sample :: samples, counts => by
    rw [List.foldl_cons, getElem?_foldl_count m bin samples, List.countP_cons]
    cases hbin : m.bin sample with
    | none => simp
    | some index =>
      dsimp only
      rw [Array.getElem?_modify]
      by_cases h : index = bin
      · rw [if_pos h, Option.map_map]
        congr 1
        funext n
        simp only [h, Function.comp_apply, decide_true, if_true]
        omega
      · rw [if_neg h]
        simp [h]

theorem getElem?_count (m : Mapper σ) (samples : List σ) {bin : Nat} (h : bin < m.bins) :
    (m.count samples)[bin]? = some (samples.countP (m.bin · = some bin)) := by
  have hfold := getElem?_foldl_count m bin samples (Array.replicate m.bins 0)
  rw [Array.getElem?_replicate, if_pos h, Option.map_some, Nat.zero_add] at hfold
  exact hfold

/-! ## Pixels of a request -/

/-- The sample of one channel of a pixel. -/
def Request.sample? (r : Request σ ℓ) (region : Region) (channel : Nat) (pixel : Pixel) :
    Option σ :=
  r.samples[pixel.row * region.stride + pixel.column * r.channels + channel]?

/-- How many pixels of a region fall into a bin of a channel. -/
def Request.pixelCount (r : Request σ ℓ) (region : Region) (m : Mapper σ) (channel bin : Nat) :
    Nat :=
  region.pixels.countP fun pixel => (r.sample? region channel pixel).bind m.bin = some bin

/-- A bin that every pixel falls into counts all of them. -/
theorem pixelCount_of_all {r : Request σ ℓ} {region : Region} {m : Mapper σ} {channel bin : Nat}
    (h : ∀ pixel ∈ region.pixels, (r.sample? region channel pixel).bind m.bin = some bin) :
    r.pixelCount region m channel bin = region.columns * region.rows := by
  rw [Request.pixelCount, List.countP_eq_length.2, length_pixels]
  exact fun pixel hpixel => decide_eq_true (h pixel hpixel)

theorem hitCount_pass {r : Request σ ℓ} {c : Config} {region : Region} {mappers : List (Mapper σ)}
    {channel : Nat} {m : Mapper σ} (hm : mappers[channel]? = some m) (bin : Nat) :
    (r.pass c region mappers).hitCount channel bin (r.pass c region mappers).region.pixels =
      r.pixelCount region m channel bin := by
  refine List.countP_congr fun pixel _ => ?_
  rw [Pass.binAt, show (r.pass c region mappers).mappers[channel]? = some m from hm]
  rfl

theorem exists_map_some {α β : Type} {f : α → Option β} : ∀ {l : List α},
    (∀ a ∈ l, ∃ b, f a = some b) → ∃ l' : List β, l.map f = l'.map some
  | [], _ => ⟨[], rfl⟩
  | a :: l, h => by
    obtain ⟨b, hb⟩ := h a List.mem_cons_self
    obtain ⟨l', hl'⟩ := exists_map_some fun a' ha' => h a' (List.mem_cons_of_mem _ ha')
    exact ⟨b :: l', by rw [List.map_cons, hb, hl', List.map_cons]⟩

/-- What the mapper counts in the samples of a channel is what falls into its bins. -/
theorem pixelCount_eq {r : Request σ ℓ} {region : Region} {channel : Nat} {samples : List σ}
    (h : region.pixels.map (r.sample? region channel) = samples.map some) (m : Mapper σ)
    (bin : Nat) : r.pixelCount region m channel bin = samples.countP (m.bin · = some bin) := by
  have hcount := congrArg (List.countP fun s => decide (s.bind m.bin = some bin)) h
  rw [List.countP_map, List.countP_map] at hcount
  exact hcount

/-! ## Calls -/

section
variable [Level ℓ] {format : SampleFormat σ ℓ} {r : Request σ ℓ}

/-- A pixel of an accepted region has a sample of every active channel. -/
theorem Accepted.exists_sample {counters : List Nat} {region : Region} {mappers : List (Mapper σ)}
    (h : Accepted r format counters region mappers) {channel : Nat} (hc : channel < counters.length)
    {pixel : Pixel} (hpixel : pixel ∈ region.pixels) :
    ∃ sample, r.sample? region channel pixel = some sample := by
  obtain ⟨hrow, hcolumn⟩ := mem_pixels.1 hpixel
  have hlt := h.sample_lt _ _ channel hrow hcolumn (Nat.lt_of_lt_of_le hc h.active_le)
  exact ⟨_, Array.getElem?_eq_getElem hlt⟩

/-- The samples of an active channel of an accepted region, pixel by pixel. -/
theorem Accepted.exists_samples {counters : List Nat} {region : Region} {mappers : List (Mapper σ)}
    (h : Accepted r format counters region mappers) {channel : Nat}
    (hc : channel < counters.length) :
    ∃ samples : List σ, region.pixels.map (r.sample? region channel) = samples.map some :=
  exists_map_some fun _ hpixel => h.exists_sample hc hpixel

/-- A request with storage that is accepted is accepted for counting. -/
theorem counting_of_accept {counters : List Nat} {task : Task σ} (hreal : r.storage.isSome)
    (h : r.accept format counters = .ok task) :
    ∃ region mappers, task = .counting region mappers := by
  rcases task_of_accept h with ⟨hsizing, -⟩ | ⟨-, htask⟩
  · rw [hsizing] at hreal
    cases hreal
  · exact htask

variable {memory : Memory k} {c : Config} {active : Nat}

theorem call_counting {region : Region} {mappers : List (Mapper σ)}
    (h : r.accept format (memory.sizes active) = .ok (.counting region mappers)) :
    (memory.call c format r active).1.counters =
      replay ((r.pass c region mappers).count c).1 memory.counters := by
  rw [Memory.call, h]

/-- The counters of an active channel after a call. -/
theorem cell_call {region : Region} {mappers : List (Mapper σ)} {channel : Nat} {m : Mapper σ}
    (h : r.accept format (memory.sizes active) = .ok (.counting region mappers))
    (hm : mappers[channel]? = some m) (bin : Nat) :
    (memory.call c format r active).1.counters.cell channel bin =
      (memory.counters.cell channel bin).map fun w =>
        if bin < m.bins then .ofInt ((r.pass c region mappers).counted c channel bin) else w := by
  rw [call_counting h, Pass.cell_count rfl]
  simp only [show (r.pass c region mappers).mappers[channel]? = some m from hm, Option.some.injEq,
    exists_eq_left']

/-- An answered call with storage counts. -/
theorem accept_of_ok (hreal : r.storage.isSome)
    (hok : (memory.call c format r active).2.result = .ok ()) :
    ∃ region mappers, r.accept format (memory.sizes active) = .ok (.counting region mappers) := by
  cases haccept : r.accept format (memory.sizes active) with
  | error e =>
    rw [Memory.call, haccept] at hok
    cases hok
  | ok task =>
    obtain ⟨region, mappers, rfl⟩ := counting_of_accept hreal haccept
    exact ⟨region, mappers, rfl⟩

theorem length_sizes (memory : Memory k) (active : Nat) :
    (memory.sizes active).length = min active memory.counters.size := by
  simp [Memory.sizes]

/-- A channel of an accepted request has a counter array that is long enough. -/
theorem Accepted.exists_array {region : Region} {mappers : List (Mapper σ)}
    (h : Accepted r format (memory.sizes active) region mappers) {channel : Nat} {m : Mapper σ}
    (hm : mappers[channel]? = some m) :
    ∃ array, memory.counters[channel]? = some array ∧ m.bins ≤ array.size := by
  have hlt := (List.getElem?_eq_some_iff.1 hm).1
  rw [h.length_eq, length_sizes] at hlt
  have hchannel : channel < memory.counters.size := by omega
  have hsizes : (memory.sizes active)[channel]? = some memory.counters[channel].size := by
    simp [Memory.sizes, hchannel, show channel < active by omega]
  exact ⟨_, Array.getElem?_eq_getElem hchannel, h.bins_le channel m _ hm hsizes⟩

/-- A bin of an accepted request has a counter. -/
theorem Accepted.exists_cell {region : Region} {mappers : List (Mapper σ)}
    (h : Accepted r format (memory.sizes active) region mappers) {channel bin : Nat} {m : Mapper σ}
    (hm : mappers[channel]? = some m) (hj : bin < m.bins) :
    ∃ w, memory.counters.cell channel bin = some w := by
  obtain ⟨array, harray, hle⟩ := h.exists_array hm
  exact exists_cell_of_lt harray (Nat.lt_of_lt_of_le hj hle)

/-- The counters of a channel are what the request asks for: every bin of the channel's mapper `m`
has the number of its pixels, which is what `m` counts in the channel's samples, and the counters
beyond the bins are those from before. -/
structure Request.Counted (r : Request σ ℓ) (format : SampleFormat σ ℓ) (channel : Nat)
    (before after : Counters k) (m : Mapper σ) (samples : List σ) : Prop where
  mapper_eq : r.binning.mapper? format.toLevel channel = some m
  samples_eq : (r.region format).pixels.map (r.sample? (r.region format) channel) = samples.map some
  count_eq : ∀ bin < m.bins,
    (m.count samples)[bin]? = some (r.pixelCount (r.region format) m channel bin)
  cell_eq : ∀ bin < m.bins,
    after.cell channel bin = some (.ofInt (r.pixelCount (r.region format) m channel bin))
  beyond : ∀ bin, m.bins ≤ bin → after.cell channel bin = before.cell channel bin

/-- **A counting call counts**, whatever the counters held and whichever strategy it chose. -/
theorem counters_of_call (hreal : r.storage.isSome)
    (hok : (memory.call c format r active).2.result = .ok ())
    (hwidth : k.bits ≤ 32 ∨ (r.region format).columns * (r.region format).rows < 2 ^ 32)
    {channel : Nat} (hchannel : channel < min active memory.counters.size) :
    ∃ m samples, r.Counted format channel memory.counters
      (memory.call c format r active).1.counters m samples := by
  obtain ⟨region, mappers, haccept⟩ := accept_of_ok hreal hok
  have h := accept_counting haccept
  have hlt : channel < (memory.sizes active).length := by rwa [length_sizes]
  obtain ⟨m, hm⟩ : ∃ m, mappers[channel]? = some m :=
    ⟨_, List.getElem?_eq_getElem (h.length_eq ▸ hlt)⟩
  obtain ⟨samples, hsamples⟩ := h.exists_samples hlt
  obtain rfl := h.region_eq
  refine ⟨m, samples, h.mapper_eq channel m hm, hsamples, fun bin hj => ?_, fun bin hj => ?_,
    fun bin hj => ?_⟩
  · rw [getElem?_count m samples hj, pixelCount_eq hsamples]
  · obtain ⟨w, hw⟩ := h.exists_cell hm hj
    rw [cell_call haccept hm, hw, Option.map_some, if_pos hj, Pass.ofInt_counted rfl hwidth,
      hitCount_pass hm]
  · rw [cell_call haccept hm]
    simp [Nat.not_lt.2 hj]

end

/-! ## A call -/

def byteFormat : SampleFormat (Word .u8) (Word .u8) := ⟨1, by decide, id⟩

/-- Two rows of two pixels, three samples each, with a sample between the rows; the first two
channels are counted. -/
def paddedRequest : Request (Word .u8) (Word .u8) :=
  .multiRangeRegion 3 (some 4)
    #[.ofInt 0, .ofInt 9, .ofInt 7, .ofInt 1, .ofInt 9, .ofInt 7, .ofInt 5,
      .ofInt 2, .ofInt 9, .ofInt 7, .ofInt 3, .ofInt 9, .ofInt 7] 2 2 7
    [#[.ofInt 0, .ofInt 2, .ofInt 4], #[.ofInt 8, .ofInt 10]]

/-- Counters that hold something, with one more than there are bins. -/
def usedMemory : Memory .i32 := ⟨#[#[.ofInt 7, .ofInt 7, .ofInt 7], #[.ofInt 7]], 0⟩

/-- At most two blocks, of two lanes with one item each. -/
def smallConfig : Config := ⟨⟨2, 1, 2, 64, 1, .silent⟩, by decide, by decide, by decide⟩

def lowBins : BoundaryBins (Word .u8) := ⟨#[.ofInt 0, .ofInt 2, .ofInt 4], by decide, by decide⟩

def nineBin : BoundaryBins (Word .u8) := ⟨#[.ofInt 8, .ofInt 10], by decide, by decide⟩

theorem accept_padded : paddedRequest.accept byteFormat (usedMemory.sizes 2) =
    .ok (.counting ⟨2, 2, 7⟩ [lowBins.mapper id, nineBin.mapper id]) := by
  rfl

/-- What that call counts. -/
def paddedPass : Pass (Word .u8) :=
  paddedRequest.pass smallConfig ⟨2, 2, 7⟩ [lowBins.mapper id, nineBin.mapper id]

theorem counters_of_paddedRequest :
    (∃ m samples, paddedRequest.Counted byteFormat 0 usedMemory.counters
      (usedMemory.call smallConfig byteFormat paddedRequest 2).1.counters m samples) ∧
    (usedMemory.call smallConfig byteFormat paddedRequest 2).1.counters =
      #[#[.ofInt 2, .ofInt 2, .ofInt 7], #[.ofInt 4]] :=
  ⟨counters_of_call (by decide) (by cbv) (.inl (by decide)) (by decide), by cbv⟩

end LaneGrid
