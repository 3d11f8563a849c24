import LaneGrid.Proofs.Histogram.Counts
import LaneGrid.Proofs.Histogram.Regions

/-!
# Nothing is read or written out of range

* `Pass.PixelInBounds`, `CounterOp.InBounds`: what a block reads and counts at a pixel is there, and
  so is the counter that an operation is on.
* `Pass.PrivatizedInBounds`, `Pass.GlobalInBounds`: all of it for one block of a counting launch,
  together with the steps that it walks in and the slots of its own counters.

`accesses_in_bounds`: every block of every launch of an accepted call stays in bounds, and no region
is refused whose pixels are all there.
-/

namespace LaneGrid

variable {σ ℓ : Type} {k : IntKind}

/-! ## Bounds -/

/-- The operation is on a counter of a channel that has so many. -/
def CounterOp.InBounds (bins : List Nat) (op : CounterOp) : Prop :=
  ∃ n, bins[op.channel]? = some n ∧ op.bin < n

namespace Pass

variable {p : Pass σ} {b : Block}

/-- All samples of a pixel are there, an active channel is one of them, and a bin that a sample
falls into has a counter. -/
structure PixelInBounds (p : Pass σ) (pixel : Pixel) : Prop where
  samples : p.pixelStart pixel + p.channels ≤ p.samples.size
  channel : ∀ channel < p.mappers.length, channel < p.channels
  counter : ∀ channel bin, (channel, bin) ∈ p.hits pixel →
    ∃ n, p.bins[channel]? = some n ∧ bin < n

/-- A block that counts in counters of its own. -/
structure PrivatizedInBounds (p : Pass σ) (b : Block) : Prop where
  rowStep : 0 < b.grid.y
  tileStep : 0 < b.grid.x * (b.size * p.itemsPerLane)
  flushStep : 0 < b.size
  pixel : ∀ pixel ∈ p.privatizedVisits b, p.PixelInBounds pixel
  slot : ∀ pixel ∈ p.privatizedVisits b, ∀ channel bin, (channel, bin) ∈ p.hits pixel →
    ∃ start, (offsets p.bins)[channel]? = some start ∧ start + bin < (p.tally b).size
  flush : ∀ (channel n : Nat), p.bins[channel]? = some n →
    ∃ start, (offsets p.bins)[channel]? = some start ∧ start + n ≤ (p.tally b).size
  counter : ∀ op ∈ (p.privatized b).ops, op.InBounds p.bins

/-- A block that counts straight into the counters. -/
structure GlobalInBounds (p : Pass σ) (b : Block) : Prop where
  pixel : ∀ pixel ∈ p.globalVisits b, p.PixelInBounds pixel
  counter : ∀ op ∈ (p.global b).ops, op.InBounds p.bins

/-! ## Blocks -/

theorem exists_mapper_of_bins {channel n : Nat} (h : p.bins[channel]? = some n) :
    ∃ m, p.mappers[channel]? = some m ∧ m.bins = n := by
  rwa [bins, List.getElem?_map, Option.map_eq_some_iff] at h

/-- A hit is in a bin of its channel's counters. -/
theorem bins_of_mem_hits {pixel : Pixel} {channel bin : Nat}
    (h : (channel, bin) ∈ p.hits pixel) : ∃ n, p.bins[channel]? = some n ∧ bin < n := by
  obtain ⟨m, hm, hbin⟩ := binAt_lt (mem_hits.1 h)
  exact ⟨m.bins, getElem?_bins hm, hbin⟩

theorem size_tally (p : Pass σ) (b : Block) : (p.tally b).size = p.totalBins := by
  have hfold : ∀ (slots : List Nat) (tally : Array (Word .u32)),
      (slots.foldl (fun tally s => tally.modify s (·.add (.ofInt 1))) tally).size =
        tally.size := by
    intro slots
    induction slots with
    | nil => exact fun _ => rfl
    | cons s slots ih => exact fun tally => (ih _).trans Array.size_modify
  rw [tally_eq, tallyOf_eq, hfold, Array.size_replicate]

/-- A channel's slots lie within the block-local counters. -/
theorem exists_start {channel n : Nat} (h : p.bins[channel]? = some n) (b : Block) :
    ∃ start, (offsets p.bins)[channel]? = some start ∧ start + n ≤ (p.tally b).size := by
  have hlt := (List.getElem?_eq_some_iff.1 h).1
  refine ⟨_, getElem?_offsets (Nat.le_of_lt hlt), ?_⟩
  rw [size_tally, totalBins_eq, ← sum_take_succ h]
  exact sum_take_le _ _

theorem zero_inBounds : ∀ op ∈ (p.zero b).ops, op.InBounds p.bins := by
  intro op hop
  obtain ⟨lane, -, channel, m, hm, hlt, rfl⟩ := mem_zero.1 hop
  exact ⟨m.bins, getElem?_bins hm, hlt⟩

/-- A block adds for bins that have pixels, and these have a counter. -/
theorem privatized_inBounds : ∀ op ∈ (p.privatized b).ops, op.InBounds p.bins := by
  intro op hop
  by_contra hout
  have hnone : ∀ m, p.mappers[op.channel]? = some m → m.bins ≤ op.bin := by
    intro m hm
    exact Nat.le_of_not_lt fun hlt => hout ⟨m.bins, getElem?_bins hm, hlt⟩
  have hon : op ∈ opsOn (p.privatized b).ops op.channel op.bin :=
    List.mem_filter.2 ⟨hop, decide_eq_true ⟨rfl, rfl⟩⟩
  rw [opsOn_privatized, hitCount_eq_zero hnone, Nat.zero_mod, if_pos rfl] at hon
  cases hon

theorem global_inBounds : ∀ op ∈ (p.global b).ops, op.InBounds p.bins := by
  intro op hop
  simp only [global, List.mem_flatMap, List.mem_map, Prod.exists] at hop
  obtain ⟨_, -, channel, bin, hhit, rfl⟩ := hop
  exact bins_of_mem_hits hhit

theorem PrivatizedInBounds.of_pixels (hy : 0 < b.grid.y) (hx : 0 < b.grid.x) (hs : 0 < b.size)
    (hi : 0 < p.itemsPerLane) (hpixels : ∀ pixel ∈ p.privatizedVisits b, p.PixelInBounds pixel) :
    p.PrivatizedInBounds b := by
  refine
    { rowStep := hy
      tileStep := Nat.mul_pos hx (Nat.mul_pos hs hi)
      flushStep := hs
      pixel := hpixels
      slot := ?_
      flush := fun channel n h => exists_start h b
      counter := privatized_inBounds }
  intro pixel _ channel bin hhit
  obtain ⟨n, hn, hbin⟩ := bins_of_mem_hits hhit
  obtain ⟨start, hstart, hle⟩ := exists_start hn b
  exact ⟨start, hstart, by omega⟩

/-- Every block of every launch of a counting call. The launches that count are made only if there
is something to read. -/
structure CallInBounds (p : Pass σ) (c : Config) (counters : Counters k) : Prop where
  slice : ∀ (channel n : Nat), p.bins[channel]? = some n →
    ∃ array, counters[channel]? = some array ∧ n ≤ array.size
  zero : ∀ b ∈ (c.zeroGrid p.maxBins).blocks c.blockSize,
    ∀ op ∈ (p.zero b).ops, op.InBounds p.bins
  divisor : p.region.isEmpty = false → 0 < (c.privatizedGrid p.region).x
  privatized : p.region.isEmpty = false →
    ∀ b ∈ (c.privatizedGrid p.region).blocks c.blockSize, p.PrivatizedInBounds b
  global : p.region.isEmpty = false →
    ∀ b ∈ (c.globalGrid p.region).blocks c.blockSize, p.GlobalInBounds b

/-- Blocks that read the region's pixels only stay in bounds if these do. -/
theorem CallInBounds.of_pixels {c : Config} {counters : Counters k}
    (hi : p.itemsPerLane = c.itemsPerLane)
    (hslice : ∀ (channel n : Nat), p.bins[channel]? = some n →
      ∃ array, counters[channel]? = some array ∧ n ≤ array.size)
    (hpixels : ∀ pixel ∈ p.region.pixels, p.PixelInBounds pixel) :
    p.CallInBounds c counters := by
  have hitems : 0 < p.itemsPerLane := hi ▸ c.itemsPerLane_pos
  refine
    { slice := hslice
      zero := fun b _ => zero_inBounds
      divisor := fun h => (privatizedGrid_pos c h).1
      privatized := ?_
      global := ?_ }
  · intro hempty b hb
    obtain ⟨hx, hy⟩ := privatizedGrid_pos c hempty
    have hgrid := grid_of_mem_blocks hb
    have hs : 0 < b.size := size_of_mem_blocks hb ▸ c.blockSize_pos
    refine .of_pixels (hgrid ▸ hy) (hgrid ▸ hx) hs hitems ?_
    intro pixel hpixel
    refine hpixels pixel ((p.privatizedVisits_perm hx hy c.blockSize_pos hitems).mem_iff.1 ?_)
    exact List.mem_flatMap.2 ⟨b, hb, hpixel⟩
  · intro _ b hb
    refine ⟨?_, global_inBounds⟩
    intro pixel hpixel
    have hperm := p.globalVisits_perm (g := c.globalGrid p.region) (hi ▸ rfl) rfl c.blockSize_pos
      hitems
    exact hpixels pixel (hperm.mem_iff.1 (List.mem_flatMap.2 ⟨b, hb, hpixel⟩))

end Pass

/-! ## Accepted calls -/

variable [Level ℓ]

/-- **Accepted calls stay in bounds, and only regions that would not are refused.** -/
theorem accesses_in_bounds (memory : Memory k) (c : Config) (format : SampleFormat σ ℓ)
    (r : Request σ ℓ) (active : Nat) :
    (∀ region mappers,
      r.accept format (memory.sizes active) = .ok (.counting region mappers) →
      (r.pass c region mappers).CallInBounds c memory.counters) ∧
    ((r.region format).isEmpty = false → r.samples.size < addressLimit →
      ((r.region format).Refused ℓ r.channels r.samples.size ↔
        ∃ pixel ∈ (r.region format).pixels,
          r.samples.size < (r.region format).pixelEnd r.channels pixel) ∧
      ((r.region format).Refused ℓ r.channels r.samples.size ↔
        Samples.region? r.samples ((r.region format).columns * r.channels)
          (r.region format).rows (r.region format).stride = none)) := by
  constructor
  · intro region mappers haccept
    have h := accept_counting haccept
    refine .of_pixels rfl ?_ ?_
    · intro channel n hn
      obtain ⟨m, hm, rfl⟩ := Pass.exists_mapper_of_bins hn
      exact h.exists_array hm
    · intro pixel hpixel
      refine
        { samples := Region.pixelEnd_le (check_of_accept haccept) hpixel
          channel := ?_
          counter := fun channel bin => Pass.bins_of_mem_hits }
      intro channel hchannel
      exact Nat.lt_of_lt_of_le (h.length_eq ▸ hchannel) h.active_le
  · intro hempty hsamples
    rw [Region.check_refuses_iff hempty hsamples, Region.exists_pixel_iff hempty,
      Region.region?_eq_none_iff hempty]
    exact ⟨Iff.rfl, Iff.rfl⟩

/-- The rows of `paddedRequest`, one sample further apart than there are samples for. -/
def stretchedRequest : Request (Word .u8) (Word .u8) :=
  { paddedRequest with extent := .region 2 2 8 }

theorem accesses_in_bounds_padded :
    (paddedRequest.pass smallConfig ⟨2, 2, 7⟩
      [lowBins.mapper id, nineBin.mapper id]).CallInBounds smallConfig usedMemory.counters ∧
    (stretchedRequest.region byteFormat).Refused (Word .u8) 3 13 ∧
    Samples.region? stretchedRequest.samples 6 2 8 = none := by
  obtain ⟨hcheck, hrows⟩ :=
    (accesses_in_bounds usedMemory smallConfig byteFormat stretchedRequest 2).2 rfl (by decide)
  have hrefused : (stretchedRequest.region byteFormat).Refused (Word .u8) 3 13 :=
    hcheck.2 ⟨⟨1, 1⟩, by decide, by decide⟩
  exact ⟨(accesses_in_bounds usedMemory smallConfig byteFormat paddedRequest 2).1 _ _ accept_padded,
    hrefused, hrows.1 hrefused⟩

end LaneGrid
