import LaneGrid.Histogram.MachineCall
import LaneGrid.Proofs.Histogram.MachineKernels
import LaneGrid.Proofs.Histogram.Launches

/-!
# Calls that nothing stops

* `Pass.CallSizes`: the numbers that a counting call comes by.
* `Pass.countOn_eq`, `Memory.callOn_eq`: a call whose numbers are indices does what it does without
  a machine.
* `Memory.callOn_exact`: so does every call where there are indices without end.
-/

namespace LaneGrid

variable {σ ℓ : Type} {k : IntKind} {m : Machine}

/-! ## Sizes -/

/-- The numbers of a call are such as `fits` says, apart from how many blocks count straight into
the counters. Launches that count are made only if there is something to read. -/
structure Pass.CallSizes (p : Pass σ) (c : Config) (fits : Nat → Prop) : Prop where
  tile : fits c.tile
  blocksX : fits (c.blocksX p.region.columns)
  totalBins : fits p.totalBins
  zeroBlocks : fits (c.zeroGrid p.maxBins).size
  /-- The counters that the lanes of the first launch stand for, also those that are not there. -/
  zeroCounter : ∀ b ∈ (c.zeroGrid p.maxBins).blocks c.blockSize, ∀ lane < b.size,
    fits (b.index.x * b.size + lane)
  privatizedBlocks : p.region.isEmpty = false → fits (c.privatizedGrid p.region).size
  lanes : p.region.isEmpty = false → ∀ s, fits (c.launchSize p.region s)
  /-- The distance between the tiles of a block. -/
  tileStep : p.region.isEmpty = false → fits ((c.privatizedGrid p.region).x * c.tile)
  /-- The columns at which the lanes of a tile look, also the first one beyond the row. -/
  privatizedColumn : p.region.isEmpty = false →
    ∀ b ∈ (c.privatizedGrid p.region).blocks c.blockSize,
    ∀ offset ∈
      strided (b.index.x * c.tile) p.region.columns ((c.privatizedGrid p.region).x * c.tile),
    ∀ item < p.itemsPerLane, ∀ lane < b.size, fits (offset + item * b.size + lane)
  privatizedTile : p.region.isEmpty = false →
    ∀ b ∈ (c.privatizedGrid p.region).blocks c.blockSize, fits (b.index.x * c.tile)
  globalColumn : p.region.isEmpty = false → ∀ b ∈ (c.globalGrid p.region).blocks c.blockSize,
    ∀ item < p.itemsPerLane, ∀ lane < b.size, fits (b.index.x * c.tile + item * b.size + lane)
  pixel : ∀ pixel ∈ p.region.pixels, fits (p.pixelStart pixel + p.channels)

theorem Pass.CallSizes.imp {p : Pass σ} {c : Config} {fits fits' : Nat → Prop}
    (h : p.CallSizes c fits) (himp : ∀ n, fits n → fits' n) : p.CallSizes c fits' where
  tile := himp _ h.tile
  blocksX := himp _ h.blocksX
  totalBins := himp _ h.totalBins
  zeroBlocks := himp _ h.zeroBlocks
  zeroCounter b hb lane hlane := himp _ (h.zeroCounter b hb lane hlane)
  privatizedBlocks hempty := himp _ (h.privatizedBlocks hempty)
  lanes hempty s := himp _ (h.lanes hempty s)
  tileStep hempty := himp _ (h.tileStep hempty)
  privatizedColumn hempty b hb offset hoffset item hitem lane hlane :=
    himp _ (h.privatizedColumn hempty b hb offset hoffset item hitem lane hlane)
  privatizedTile hempty b hb := himp _ (h.privatizedTile hempty b hb)
  globalColumn hempty b hb item hitem lane hlane :=
    himp _ (h.globalColumn hempty b hb item hitem lane hlane)
  pixel pixel hpixel := himp _ (h.pixel pixel hpixel)

/-- Every call comes by numbers only. -/
theorem Pass.CallSizes.of_forall {fits : Nat → Prop} (h : ∀ n, fits n) (p : Pass σ) (c : Config) :
    p.CallSizes c fits := by
  constructor <;> intros <;> exact h _

namespace Machine

theorem blocksX_of_fits {c : Config} (h : m.Fits c.tile) (columns : Nat) :
    m.blocksX c columns = .ok (c.blocksX columns) := by
  rw [blocksX, index_eq_iff.2 h]
  exact if_neg (Nat.ne_of_gt c.tile_pos)

theorem launchSize_of_fits {c : Config} {r : Region} {s : Strategy}
    (h : m.Fits (c.launchSize r s)) :
    m.launchSize c (c.countingGrid r s) s = .ok (c.launchSize r s) := by
  cases s with
  | privatized => exact index_eq_iff.2 h
  | global => rfl

/-- A launch whose blocks all get to their end does what they do one after another. -/
theorem launch_ofList {g : Grid} {lanes : Nat} (hg : m.Fits g.size)
    {kernelOn : Block → Walk CounterOp} {kernel : Block → BlockRun}
    (h : ∀ b ∈ g.blocks lanes, kernelOn b = .ofList (kernel b).ops) :
    m.launch g lanes kernelOn = .ofList (Pass.launchOps g lanes kernel) := by
  rw [launch_eq hg, Walk.each_ofList h, Pass.launchOps_eq]

end Machine

/-! ## What a counting call does -/

/-- The second launch of a counting call, if there is something to read. -/
def Pass.countingOn (p : Pass σ) (m : Machine) (c : Config) (blocksX : Nat) : Walk CounterOp :=
  let s := c.strategy p.totalBins
  let grid := c.gridOf blocksX p.region.rows s
  if p.region.isEmpty then .ofList []
  else
    match m.launchSize c grid s with
    | .error stop => .stopped stop
    | .ok _ => m.launch grid c.blockSize (p.kernelOn m s)

/-- **A counting call is one launch after the other**, once it has come by its tiles and its
workers. -/
theorem Pass.run_countOn (p : Pass σ) (m : Machine) (c : Config) :
    (p.countOn m c).run =
      match m.blocksX c p.region.columns, m.start c.workers with
      | .error stop, _ | .ok _, .error stop => .stopped stop
      | .ok blocksX, .ok () =>
        (m.launch (c.zeroGrid p.maxBins) c.blockSize (p.zeroOn m)).append
          (p.countingOn m c blocksX) := by
  unfold countOn countingOn
  simp only [Logger.time_eq]
  cases m.blocksX c p.region.columns with
  | error stop => rfl
  | ok blocksX =>
  cases m.start c.workers with
  | error stop => rfl
  | ok =>
  dsimp only
  cases hstop : (m.launch (c.zeroGrid p.maxBins) c.blockSize (p.zeroOn m)).stop with
  | some stop => exact (Walk.append_of_some hstop).symm
  | none =>
  cases p.region.isEmpty with
  | true => exact (Walk.append_nil _).symm
  | false =>
  cases m.launchSize c (c.gridOf blocksX p.region.rows (c.strategy p.totalBins))
    (c.strategy p.totalBins) with
  | error stop => rfl
  | ok size =>
    simp only [Bool.false_eq_true, if_false]
    split <;> rfl

/-! ## Operations -/

namespace Pass

variable {p : Pass σ} {c : Config}

theorem mem_countingOn {blocksX : Nat} {op : CounterOp}
    (h : op ∈ (p.countingOn m c blocksX).done) : ∃ channel mapper,
      p.mappers[channel]? = some mapper ∧ ∃ bin < mapper.bins, ∃ count,
        op = .add channel bin count := by
  unfold countingOn at h
  dsimp only at h
  split at h
  · cases h
  · split at h
    · cases h
    · obtain ⟨_, -, h⟩ := Machine.mem_launch h
      exact mem_kernelOn h

/-- **A counting call works on counters of bins only**, also if it stops. -/
theorem exists_bin_of_mem_countOn {op : CounterOp} (h : op ∈ (p.countOn m c).run.done) :
    ∃ mapper, p.mappers[op.channel]? = some mapper ∧ op.bin < mapper.bins := by
  rw [run_countOn] at h
  split at h
  · cases h
  · cases h
  · rcases Walk.mem_append h with h | h
    · obtain ⟨_, -, h⟩ := Machine.mem_launch h
      obtain ⟨_, mapper, hmapper, _, hlt, rfl⟩ := mem_zeroOn h
      exact ⟨mapper, hmapper, hlt⟩
    · obtain ⟨_, mapper, hmapper, _, hlt, _, rfl⟩ := mem_countingOn h
      exact ⟨mapper, hmapper, hlt⟩

/-- A counting call that does not stop gets to the end of both launches. -/
theorem exists_of_stop_countOn (h : (p.countOn m c).run.stop = none) :
    ∃ blocksX, m.blocksX c p.region.columns = .ok blocksX ∧
      (m.launch (c.zeroGrid p.maxBins) c.blockSize (p.zeroOn m)).stop = none ∧
      (p.countingOn m c blocksX).stop = none ∧
      (p.countOn m c).run.done =
        (m.launch (c.zeroGrid p.maxBins) c.blockSize (p.zeroOn m)).done ++
          (p.countingOn m c blocksX).done := by
  rw [run_countOn] at h ⊢
  cases hx : m.blocksX c p.region.columns with
  | error stop =>
    rw [hx] at h
    cases h
  | ok blocksX =>
  cases hstart : m.start c.workers with
  | error stop =>
    rw [hx, hstart] at h
    cases h
  | ok =>
  rw [hx, hstart] at h
  obtain ⟨hzero, hcounting⟩ := Walk.stop_append_eq_none.1 h
  exact ⟨blocksX, rfl, hzero, hcounting, Walk.done_append hzero _⟩

/-- Where the counters have indices, the first launch comes to every bin. -/
theorem reset_mem_launch (hfits : m.Fits p.maxBins)
    (hstop : (m.launch (c.zeroGrid p.maxBins) c.blockSize (p.zeroOn m)).stop = none)
    {channel bin : Nat} {mapper : Mapper σ} (hmapper : p.mappers[channel]? = some mapper)
    (hbin : bin < mapper.bins) : .reset channel bin ∈
      (m.launch (c.zeroGrid p.maxBins) c.blockSize (p.zeroOn m)).done := by
  have hlt := Nat.lt_of_lt_of_le hbin (bins_le_maxBins hmapper)
  obtain ⟨b, hb, lane, hlane, rfl⟩ := exists_zeroBlock (c := c) hlt
  rw [Machine.launch_eq (hfits.of_le (zeroGrid_size_le c p.maxBins))] at hstop ⊢
  have hlanes := Walk.stop_of_each hstop b hb
  rw [Walk.done_each hstop]
  refine List.mem_flatMap.2 ⟨b, hb, ?_⟩
  unfold zeroOn at hlanes ⊢
  rw [Walk.done_each hlanes]
  refine List.mem_flatMap.2 ⟨lane, List.mem_range.2 hlane, ?_⟩
  rw [Machine.withIndex_of_fits (hfits.of_le (Nat.le_of_lt hlt))]
  refine List.mem_filterMap.2 ⟨(mapper.bins, channel), ?_, if_pos hbin⟩
  rw [List.mem_zipIdx_iff_getElem?]
  exact getElem?_bins hmapper

/-- **A counting call that does not stop decides the counters of its bins**, whatever they held. -/
theorem exists_cell_countOn (hfits : m.Fits p.maxBins) (h : (p.countOn m c).run.stop = none)
    {channel bin : Nat} {mapper : Mapper σ} (hmapper : p.mappers[channel]? = some mapper)
    (hbin : bin < mapper.bins) : ∃ n : Nat, ∀ counters : Counters k,
      (replay (p.countOn m c).run.done counters).cell channel bin =
        (counters.cell channel bin).map fun _ => .ofInt n := by
  obtain ⟨blocksX, -, hzero, -, hdone⟩ := exists_of_stop_countOn h
  refine ⟨added (p.countingOn m c blocksX).done channel bin, fun counters => ?_⟩
  have hresets : ∀ op ∈ (m.launch (c.zeroGrid p.maxBins) c.blockSize (p.zeroOn m)).done,
      ∃ c j, op = .reset c j := by
    intro op hop
    obtain ⟨_, -, hop⟩ := Machine.mem_launch hop
    obtain ⟨channel, _, -, bin, -, rfl⟩ := mem_zeroOn hop
    exact ⟨channel, bin, rfl⟩
  have hadds : ∀ op ∈ (p.countingOn m c blocksX).done, ∃ c j n, op = .add c j n := by
    intro op hop
    obtain ⟨channel, _, -, bin, -, count, rfl⟩ := mem_countingOn hop
    exact ⟨channel, bin, count, rfl⟩
  rw [hdone, replay_append, cell_replay_adds hadds, cell_replay_resets hresets, Option.map_map]
  congr 1
  funext w
  rw [Function.comp_apply, if_pos (reset_mem_launch hfits hzero hmapper hbin),
    Word.zero_add_ofInt]

end Pass

/-! ## Launches -/

namespace Pass

variable {p : Pass σ} {c : Config}

theorem launch_zeroOn (h : p.CallSizes c m.Fits) :
    m.launch (c.zeroGrid p.maxBins) c.blockSize (p.zeroOn m) = .ofList (p.zeroOps c) :=
  Machine.launch_ofList h.zeroBlocks fun b hb => zeroOn_eq (h.zeroCounter b hb)

section
variable (hp : p.itemsPerLane = c.itemsPerLane) (hempty : p.region.isEmpty = false)
  (h : p.CallSizes c m.Fits)
include hp hempty h

theorem launch_privatizedOn :
    m.launch (c.privatizedGrid p.region) c.blockSize (p.privatizedOn m) =
      .ofList (p.countOps c .privatized) := by
  refine Machine.launch_ofList (h.privatizedBlocks hempty) fun b hb => ?_
  obtain ⟨hx, hy⟩ := privatizedGrid_pos c hempty
  have hcolumn := h.privatizedColumn hempty b hb
  have hstart := h.privatizedTile hempty b hb
  have htile : b.size * p.itemsPerLane = c.tile := by rw [size_of_mem_blocks hb, hp, Config.tile]
  rw [← grid_of_mem_blocks hb] at hx hy hcolumn
  refine privatizedOn_eq (privatizedVisitsOn_eq hx hy ?_ ?_
    { tile := htile ▸ h.tile
      start := htile ▸ hstart
      step := ?_
      columns := fun offset hoffset lane hlane item hitem _ => ?_ })
  · rw [size_of_mem_blocks hb]
    exact c.blockSize_pos
  · rw [hp]
    exact c.itemsPerLane_pos
  · rw [htile, grid_of_mem_blocks hb]
    exact h.tileStep hempty
  · rw [htile] at hoffset
    exact hcolumn offset hoffset item hitem lane hlane

theorem launch_globalOn (hg : m.Fits (c.globalGrid p.region).size) :
    m.launch (c.globalGrid p.region) c.blockSize (p.globalOn m) =
      .ofList (p.countOps c .global) := by
  refine Machine.launch_ofList hg fun b hb => globalOn_eq ?_
  have hcolumn := h.globalColumn hempty b hb
  have htile : b.size * p.itemsPerLane = c.tile := by rw [size_of_mem_blocks hb, hp, Config.tile]
  rw [← htile] at hcolumn
  refine globalVisitsOn_eq ?_ fun lane hlane item hitem _ => hcolumn item hitem lane hlane
  -- the first lane starts where the tile does
  have hfirst := hcolumn 0 (hp ▸ c.itemsPerLane_pos) 0 (size_of_mem_blocks hb ▸ c.blockSize_pos)
  rwa [Nat.zero_mul, Nat.add_zero] at hfirst

theorem launch_kernelOn
    (hg : c.strategy p.totalBins = .global → m.Fits (c.globalGrid p.region).size) :
    m.launch (c.countingGrid p.region (c.strategy p.totalBins)) c.blockSize
        (p.kernelOn m (c.strategy p.totalBins)) =
      .ofList (p.countOps c (c.strategy p.totalBins)) := by
  cases hs : c.strategy p.totalBins with
  | privatized => exact launch_privatizedOn hp hempty h
  | global => exact launch_globalOn hp hempty h (hg hs)

end

/-! ## Calls -/

/-- **A counting call whose numbers are indices** does what it does without a machine. -/
theorem countOn_eq (hp : p.itemsPerLane = c.itemsPerLane) (hstart : m.start c.workers = .ok ())
    (h : p.CallSizes c m.Fits)
    (hg : p.region.isEmpty = false → c.strategy p.totalBins = .global →
      m.Fits (c.globalGrid p.region).size) :
    p.countOn m c = ⟨.ofList (p.count c).1, (p.count c).2⟩ := by
  unfold countOn count
  simp only [Machine.blocksX_of_fits h.tile, hstart, Logger.time_eq, launch_zeroOn h]
  cases hempty : p.region.isEmpty with
  | true => rfl
  | false =>
    simp only [Config.gridOf_blocksX, Machine.launchSize_of_fits (h.lanes hempty _),
      launch_kernelOn hp hempty h (hg hempty)]
    rfl

end Pass

namespace Memory

variable [Level ℓ] {memory : Memory k} {c : Config} {format : SampleFormat σ ℓ} {r : Request σ ℓ}
  {active : Nat} {region : Region} {mappers : List (Mapper σ)}

/-- **A call whose numbers are indices** does what it does without a machine. -/
theorem callOn_eq (haccept : r.accept format (memory.sizes active) = .ok (.counting region mappers))
    (hstart : m.start c.workers = .ok ()) (h : (r.pass c region mappers).CallSizes c m.Fits)
    (hg : region.isEmpty = false → c.strategy (r.pass c region mappers).totalBins = .global →
      m.Fits (c.globalGrid region).size) :
    memory.callOn m c format r active =
      ((memory.call c format r active).1, (memory.call c format r active).2.unstopped) := by
  unfold callOn call
  rw [haccept]
  dsimp only
  rw [Pass.countOn_eq rfl hstart h hg]
  rfl

/-- **Where there are indices without end** and every pool is made, every call does what it does
without a machine. -/
theorem callOn_exact (hexact : m.arithmetic = .exact) (hstart : m.start c.workers = .ok ())
    (memory : Memory k) (format : SampleFormat σ ℓ) (r : Request σ ℓ) (active : Nat) :
    memory.callOn m c format r active =
      ((memory.call c format r active).1, (memory.call c format r active).2.unstopped) := by
  have hfits (n : Nat) : m.Fits n := .inl hexact
  cases haccept : r.accept format (memory.sizes active) with
  | error e =>
    unfold callOn call
    rw [haccept]
    rfl
  | ok task =>
    cases task with
    | sizing =>
      unfold callOn call
      rw [haccept]
      rfl
    | counting region mappers =>
      exact callOn_eq haccept hstart (.of_forall hfits _ c) fun _ _ => hfits _

end Memory

end LaneGrid
