import LaneGrid.Histogram.Call
import LaneGrid.Proofs.Histogram.BlockCounts

/-!
# What a counting call does to the counters

A counting call sets every counter that an active channel has a bin for to zero (`mem_zeroOps`), and
then adds what its blocks counted (`Pass.counted`). No other counter changes (`cell_count`).

Straight into the counters, this is how many pixels of the region fall into the bin
(`counted_global`). With block-local counters, every `2 ^ 32` pixels that one block finds in one bin
are lost (`Pass.wraps`, `counted_privatized`): for counters of 32 bits or fewer, or fewer than `2 ^
32` pixels, this changes nothing (`ofInt_counted`).
-/

namespace LaneGrid

open scoped List

variable {σ : Type} {k : IntKind}

namespace Pass

/-! ## Setting to zero -/

theorem le_foldl_max : ∀ {l : List Nat} {n : Nat}, n ≤ l.foldl max n ∧ ∀ a ∈ l, a ≤ l.foldl max n
  | [], n => ⟨Nat.le_refl n, by simp⟩
  | b :: l, n => by
    obtain ⟨h1, h2⟩ := @le_foldl_max l (max n b)
    refine ⟨Nat.le_trans (Nat.le_max_left n b) h1, fun a ha => ?_⟩
    rcases List.mem_cons.1 ha with rfl | ha
    · exact Nat.le_trans (Nat.le_max_right n a) h1
    · exact h2 a ha

theorem foldl_max_eq_or_mem : ∀ (l : List Nat) (n : Nat), l.foldl max n = n ∨ l.foldl max n ∈ l
  | [], n => .inl rfl
  | a :: l, n => by
    rw [List.foldl_cons]
    rcases foldl_max_eq_or_mem l (max n a) with h | h
    · rw [h]
      rcases Nat.le_total n a with hle | hle
      · rw [Nat.max_eq_right hle]
        exact .inr List.mem_cons_self
      · exact .inl (Nat.max_eq_left hle)
    · exact .inr (List.mem_cons_of_mem a h)

/-- Some channel has the most bins, if there is any channel. -/
theorem maxBins_eq_zero_or (p : Pass σ) :
    p.maxBins = 0 ∨ ∃ (channel : Nat) (m : Mapper σ), p.mappers[channel]? = some m ∧
      p.maxBins = m.bins := by
  rcases foldl_max_eq_or_mem p.bins 0 with h | h
  · exact .inl h
  · obtain ⟨m, hm, hbins⟩ := List.mem_map.1 h
    obtain ⟨channel, hchannel⟩ := List.mem_iff_getElem?.1 hm
    exact .inr ⟨channel, m, hchannel, hbins.symm⟩

theorem bins_le_maxBins {p : Pass σ} {channel : Nat} {m : Mapper σ}
    (hm : p.mappers[channel]? = some m) : m.bins ≤ p.maxBins :=
  le_foldl_max.2 _ (List.mem_of_getElem? (getElem?_bins hm))

theorem mem_launchOps {g : Grid} {lanes : Nat} {kernel : Block → BlockRun} {op : CounterOp} :
    op ∈ launchOps g lanes kernel ↔ ∃ b ∈ g.blocks lanes, op ∈ (kernel b).ops := by
  simp [launchOps, Grid.launch]

theorem launchOps_eq (g : Grid) (lanes : Nat) (kernel : Block → BlockRun) :
    launchOps g lanes kernel = (g.blocks lanes).flatMap fun b => (kernel b).ops := by
  rw [launchOps, Grid.launch, List.flatMap_def]

/-- The operations of a block that sets counters to zero. -/
theorem mem_zero {p : Pass σ} {b : Block} {op : CounterOp} :
    op ∈ (p.zero b).ops ↔ ∃ lane < b.size, ∃ channel m, p.mappers[channel]? = some m ∧
      b.index.x * b.size + lane < m.bins ∧ op = .reset channel (b.index.x * b.size + lane) := by
  simp only [zero, Block.lanes, List.mem_flatMap, List.mem_range, List.mem_filterMap, Prod.exists,
    List.mem_zipIdx_iff_getElem?, bins, List.getElem?_map, Option.map_eq_some_iff]
  constructor
  · rintro ⟨lane, hl, n, channel, ⟨m, hm, rfl⟩, h⟩
    split at h
    · rename_i hlt
      exact ⟨lane, hl, channel, m, hm, hlt, (Option.some.inj h).symm⟩
    · cases h
  · rintro ⟨lane, hl, channel, m, hm, hlt, rfl⟩
    exact ⟨lane, hl, m.bins, channel, ⟨m, hm, rfl⟩, if_pos hlt⟩

theorem zeroGrid_size_le (c : Config) (maxBins : Nat) : (c.zeroGrid maxBins).size ≤ maxBins := by
  rw [Config.zeroGrid, Grid.linear, Grid.size, Nat.mul_one]
  exact cover_le_self _ c.blockSize_pos

/-- The block of the first launch that comes to a counter. -/
theorem exists_zeroBlock {c : Config} {maxBins bin : Nat} (h : bin < maxBins) :
    ∃ b ∈ (c.zeroGrid maxBins).blocks c.blockSize, ∃ lane < b.size,
      b.index.x * b.size + lane = bin := by
  have hsize := c.blockSize_pos
  -- lane `bin % blockSize` of block `bin / blockSize`
  have hx : bin / c.blockSize < cover maxBins c.blockSize := by
    rw [lt_cover_iff hsize]
    exact Nat.lt_of_le_of_lt (Nat.div_mul_le_self _ _) h
  have hindex := @Grid.index_flat (c.zeroGrid maxBins) ⟨bin / c.blockSize, 0⟩ hx
  rw [Nat.zero_mul, Nat.zero_add] at hindex
  refine ⟨⟨⟨bin / c.blockSize, 0⟩, c.zeroGrid maxBins, c.blockSize, 0⟩, ?_, bin % c.blockSize,
    Nat.mod_lt _ hsize, by rw [Nat.mul_comm, Nat.div_add_mod]⟩
  rw [Grid.blocks, if_neg (by omega), List.mem_map]
  refine ⟨bin / c.blockSize, ?_, by rw [hindex]⟩
  rw [List.mem_range, Grid.size]
  exact Nat.lt_of_lt_of_le hx (Nat.le_of_eq (Nat.mul_one _).symm)

/-- **Every counter of an active channel is set to zero**, and no other. -/
theorem mem_zeroOps {p : Pass σ} {c : Config} {op : CounterOp} :
    op ∈ p.zeroOps c ↔
      ∃ channel m, p.mappers[channel]? = some m ∧ ∃ bin < m.bins, op = .reset channel bin := by
  rw [zeroOps, mem_launchOps]
  constructor
  · rintro ⟨b, -, h⟩
    obtain ⟨lane, -, channel, m, hm, hlt, rfl⟩ := mem_zero.1 h
    exact ⟨channel, m, hm, _, hlt, rfl⟩
  · rintro ⟨channel, m, hm, bin, hj, rfl⟩
    obtain ⟨b, hb, lane, hlane, hbin⟩ :=
      exists_zeroBlock (c := c) (Nat.lt_of_lt_of_le hj (bins_le_maxBins hm))
    exact ⟨b, hb, mem_zero.2 ⟨lane, hlane, channel, m, hm, hbin ▸ hj, by rw [hbin]⟩⟩

/-! ## Counting -/

theorem kernel_adds {p : Pass σ} {s : Strategy} {b : Block} {op : CounterOp}
    (h : op ∈ (p.kernel s b).ops) : ∃ channel bin count, op = .add channel bin count := by
  cases s with
  | privatized =>
    obtain ⟨channel, _, -, bin, -, count, rfl⟩ := mem_flush h
    exact ⟨channel, bin, count, rfl⟩
  | global =>
    simp only [kernel, global, List.mem_flatMap, List.mem_map, Prod.exists] at h
    obtain ⟨_, -, channel, bin, -, rfl⟩ := h
    exact ⟨_, _, _, rfl⟩

theorem countOps_adds {p : Pass σ} {c : Config} {s : Strategy} {op : CounterOp}
    (h : op ∈ p.countOps c s) : ∃ channel bin count, op = .add channel bin count := by
  obtain ⟨_, -, h⟩ := mem_launchOps.1 h
  exact kernel_adds h

/-- What a counting call adds to a counter after setting it to zero. -/
def counted (p : Pass σ) (c : Config) (channel bin : Nat) : Nat :=
  if p.region.isEmpty then 0 else added (p.countOps c (c.strategy p.totalBins)) channel bin

/-- How often the block-local counters of a bin come round to zero, over all blocks. -/
def wraps (p : Pass σ) (c : Config) (channel bin : Nat) : Nat :=
  (((c.privatizedGrid p.region).blocks c.blockSize).map fun b =>
    p.hitCount channel bin (p.privatizedVisits b) / 2 ^ 32).sum

theorem size_of_mem_blocks {g : Grid} {lanes : Nat} {b : Block} (h : b ∈ g.blocks lanes) :
    b.size = lanes := by
  unfold Grid.blocks at h
  split at h
  · cases h
  · obtain ⟨_, -, rfl⟩ := List.mem_map.1 h
    rfl

theorem grid_of_mem_blocks {g : Grid} {lanes : Nat} {b : Block} (h : b ∈ g.blocks lanes) :
    b.grid = g := by
  unfold Grid.blocks at h
  split at h
  · cases h
  · obtain ⟨_, -, rfl⟩ := List.mem_map.1 h
    rfl

theorem privatizedGrid_pos (c : Config) {r : Region} (h : r.isEmpty = false) :
    0 < (c.privatizedGrid r).x ∧ 0 < (c.privatizedGrid r).y := by
  simp only [Region.isEmpty, Bool.or_eq_false_iff, beq_eq_false_iff_ne] at h
  have hblocks : 0 < c.blocksX r.columns := (lt_cover_iff c.tile_pos).2 (by omega)
  have hmax := c.maxGridSize_pos
  have hx : 0 < min c.maxGridSize (c.blocksX r.columns) := by omega
  refine ⟨hx, ?_⟩
  have hy : 0 < c.maxGridSize / min c.maxGridSize (c.blocksX r.columns) :=
    Nat.div_pos (Nat.min_le_left _ _) hx
  show 0 < min r.rows _
  omega

theorem pixels_of_isEmpty {r : Region} (h : r.isEmpty = true) : r.pixels = [] := by
  simp only [Region.isEmpty, Bool.or_eq_true, beq_iff_eq] at h
  rw [← List.length_eq_zero_iff, length_pixels]
  rcases h with h | h <;> simp [h]

theorem blocks_of_isEmpty (c : Config) {r : Region} (h : r.isEmpty = true) :
    (c.privatizedGrid r).blocks c.blockSize = [] := by
  simp only [Region.isEmpty, Bool.or_eq_true, beq_iff_eq] at h
  have hsize : (c.privatizedGrid r).size = 0 := by
    rw [Grid.size, Nat.mul_eq_zero]
    rcases h with h | h
    · have hblocks : c.blocksX r.columns ≤ 0 := (cover_le_iff c.tile_pos).2 (by omega)
      exact .inl (Nat.le_zero.1 (Nat.le_trans (Nat.min_le_right _ _) hblocks))
    · exact .inr (Nat.le_zero.1 (h ▸ Nat.min_le_left _ _))
  rw [Grid.blocks, hsize, List.range_zero, List.map_nil, ite_self]

theorem sum_mod_add_sum_div {β : Type} (n : Nat) (f : β → Nat) : ∀ l : List β,
    (l.map fun b => f b % n).sum + n * (l.map fun b => f b / n).sum = (l.map f).sum
  | [] => rfl
  | b :: l => by
    have ih := sum_mod_add_sum_div n f l
    have := Nat.mod_add_div (f b) n
    simp only [List.map_cons, List.sum_cons, Nat.mul_add]
    omega

section
variable {p : Pass σ} {c : Config} (hp : p.itemsPerLane = c.itemsPerLane)
include hp

/-- **Counting straight into the counters** loses nothing. -/
theorem counted_global (hs : c.strategy p.totalBins = .global) (channel bin : Nat) :
    p.counted c channel bin = p.hitCount channel bin p.region.pixels := by
  unfold counted
  split
  · rename_i hempty
    rw [pixels_of_isEmpty hempty, hitCount_nil]
  · rw [hs, countOps, launchOps_eq, added_flatMap]
    simp only [kernel, added_global]
    rw [← hitCount_flatMap]
    refine hitCount_perm _ _ _ (p.globalVisits_perm ?_ rfl c.blockSize_pos ?_)
    · rw [hp]
      rfl
    · rw [hp]
      exact c.itemsPerLane_pos

/-- **Counting in block-local counters** loses `2 ^ 32` pixels whenever one of them comes round. -/
theorem counted_privatized (hs : c.strategy p.totalBins = .privatized) (channel bin : Nat) :
    p.counted c channel bin + 2 ^ 32 * p.wraps c channel bin =
      p.hitCount channel bin p.region.pixels := by
  unfold counted
  split
  · rename_i hempty
    rw [wraps, blocks_of_isEmpty c hempty, pixels_of_isEmpty hempty]
    rfl
  · rename_i hempty
    obtain ⟨hx, hy⟩ := privatizedGrid_pos c (Bool.eq_false_iff.2 hempty)
    have hblocks : added (p.countOps c .privatized) channel bin =
        (((c.privatizedGrid p.region).blocks c.blockSize).map fun b =>
          p.hitCount channel bin (p.privatizedVisits b) % 2 ^ 32).sum := by
      rw [countOps, launchOps_eq, added_flatMap]
      exact congrArg _ (List.map_congr_left fun b _ => p.added_privatized b channel bin)
    -- every block adds its hits modulo `2 ^ 32`, and the quotients are what is lost
    rw [hs, hblocks, wraps, sum_mod_add_sum_div, ← hitCount_flatMap]
    refine hitCount_perm _ _ _ (p.privatizedVisits_perm hx hy c.blockSize_pos ?_)
    rw [hp]
    exact c.itemsPerLane_pos

theorem wraps_eq_zero (hs : c.strategy p.totalBins = .privatized)
    (h : p.region.columns * p.region.rows < 2 ^ 32) (channel bin : Nat) :
    p.wraps c channel bin = 0 := by
  have hcounted := counted_privatized hp hs channel bin
  have hle : p.hitCount channel bin p.region.pixels ≤ p.region.pixels.length :=
    List.countP_le_length
  rw [length_pixels] at hle
  omega

/-- A single block's counters come round once in `2 ^ 32` pixels of the region. -/
theorem wraps_of_one_block (h : c.privatizedGrid p.region = ⟨1, 1⟩) (channel bin : Nat) :
    p.wraps c channel bin = p.hitCount channel bin p.region.pixels / 2 ^ 32 := by
  have hperm := p.privatizedVisits_perm (g := ⟨1, 1⟩) Nat.one_pos Nat.one_pos c.blockSize_pos
    (hp ▸ c.itemsPerLane_pos)
  rw [← hitCount_perm p channel bin hperm, wraps, h, Grid.blocks,
    if_neg (Nat.pos_iff_ne_zero.1 c.blockSize_pos)]
  simp [Grid.size]

theorem counted_le (channel bin : Nat) :
    p.counted c channel bin ≤ p.hitCount channel bin p.region.pixels := by
  cases hs : c.strategy p.totalBins with
  | privatized =>
    have := counted_privatized hp hs channel bin
    omega
  | global => exact Nat.le_of_eq (counted_global hp hs channel bin)

/-- **No pixel is lost** when the counters are no wider than the block-local ones, or when there are
fewer pixels than a block-local counter can hold. -/
theorem ofInt_counted (hk : k.bits ≤ 32 ∨ p.region.columns * p.region.rows < 2 ^ 32)
    (channel bin : Nat) :
    (.ofInt (p.counted c channel bin) : Word k) =
      .ofInt (p.hitCount channel bin p.region.pixels) := by
  cases hs : c.strategy p.totalBins with
  | global => rw [counted_global hp hs]
  | privatized =>
    rw [← counted_privatized hp hs channel bin, Word.ofInt_natCast_inj]
    rcases hk with hk | hk
    · rw [← Nat.add_sub_of_le hk, Nat.pow_add, Nat.mul_assoc, Nat.add_mul_mod_self_left]
    · rw [wraps_eq_zero hp hs hk, Nat.mul_zero, Nat.add_zero]

end

theorem count_fst (p : Pass σ) (c : Config) :
    (p.count c).1 = p.zeroOps c ++
      if p.region.isEmpty then [] else p.countOps c (c.strategy p.totalBins) := by
  unfold count Logger.time
  dsimp only
  split <;> split <;> simp

/-- The first launch sets the counters of bins to zero and leaves the others. -/
theorem cell_zeroOps (p : Pass σ) (c : Config) (counters : Counters k) (channel bin : Nat) :
    (replay (p.zeroOps c) counters).cell channel bin =
      (counters.cell channel bin).map fun w =>
        if ∃ m, p.mappers[channel]? = some m ∧ bin < m.bins then .zero else w := by
  have hresets : ∀ op ∈ p.zeroOps c, ∃ c j, op = .reset c j := by
    intro op h
    obtain ⟨channel, _, _, bin, _, rfl⟩ := mem_zeroOps.1 h
    exact ⟨channel, bin, rfl⟩
  have hmem : .reset channel bin ∈ p.zeroOps c ↔
      ∃ m, p.mappers[channel]? = some m ∧ bin < m.bins := by
    rw [mem_zeroOps]
    constructor
    · rintro ⟨_, m, hm, _, hj, h⟩
      cases h
      exact ⟨m, hm, hj⟩
    · rintro ⟨m, hm, hj⟩
      exact ⟨channel, m, hm, bin, hj, rfl⟩
  simp only [cell_replay_resets hresets, hmem]

/-- **A counting call decides the counters of its bins**, whatever they held, and leaves the others.
-/
theorem cell_count {p : Pass σ} {c : Config} (hp : p.itemsPerLane = c.itemsPerLane)
    (counters : Counters k) (channel bin : Nat) :
    (replay (p.count c).1 counters).cell channel bin =
      (counters.cell channel bin).map fun w =>
        if ∃ m, p.mappers[channel]? = some m ∧ bin < m.bins then
          .ofInt (p.counted c channel bin)
        else w := by
  have hadds : ∀ op ∈ (if p.region.isEmpty then [] else p.countOps c (c.strategy p.totalBins)),
      ∃ c j n, op = .add c j n := by
    intro op h
    split at h
    · cases h
    · exact countOps_adds h
  have hcounted : added (if p.region.isEmpty then [] else p.countOps c (c.strategy p.totalBins))
      channel bin = p.counted c channel bin := by
    unfold counted
    split <;> rfl
  rw [count_fst, replay_append, cell_replay_adds hadds, cell_zeroOps, Option.map_map, hcounted]
  congr 1
  funext w
  simp only [Function.comp_apply]
  split
  · exact Word.zero_add_ofInt _
  · rename_i hnone
    -- a counter that no bin stands for is never added to
    have hle := counted_le hp channel bin
    rw [hitCount_eq_zero fun m hm => Nat.le_of_not_lt fun hlt => hnone ⟨m, hm, hlt⟩,
      Nat.le_zero] at hle
    rw [hle]
    exact Word.add_ofInt_zero w

end Pass

end LaneGrid
