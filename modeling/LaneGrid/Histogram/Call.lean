import LaneGrid.Histogram.Settings
import LaneGrid.Histogram.Request

/-!
# Histogram calls

A call either answers the size of the temporary storage, or counts: one launch sets the counters of
the active channels to zero and a second one counts the samples, in block-local counters if all bins
together are few enough and straight into the counters otherwise.

* `Strategy`, `Config.strategy`: how samples are counted.
* `zeroGrid`, `privatizedGrid`, `globalGrid`: the grids of the three launches.
* `Pass.count`: the operations of a counting call, in the order of the blocks' numbers, and its log.
* `Memory`: the counters of every channel and the size that sizing calls answer into; `Memory.call`
  makes one call on the first few counter arrays. A refused call changes nothing.
-/

namespace LaneGrid

variable {σ ℓ : Type} {k : IntKind}

/-! ## Strategies and grids -/

/-- Where samples are counted first. -/
inductive Strategy where
  /-- In block-local counters, added to the others at the end. -/
  | privatized
  /-- In the counters themselves. -/
  | global
deriving DecidableEq

def Strategy.name : Strategy → String
  | .privatized => "privatized"
  | .global => "global"

/-- What the counting launch of a strategy is called in the log. -/
def Strategy.launchName : Strategy → String
  | .privatized => "histogram_shared"
  | .global => "histogram_global"

namespace Config

/-- Block-local counters hold all bins of the active channels, as long as these are few enough. -/
def strategy (c : Config) (totalBins : Nat) : Strategy :=
  if totalBins ≤ c.privatizedMaxBins then .privatized else .global

/-- Tiles, and so blocks, that cover one row. -/
def blocksX (c : Config) (columns : Nat) : Nat := cover columns c.tile

/-- A lane for every counter of the channel with the most. -/
def zeroGrid (c : Config) (maxBins : Nat) : Grid := .linear (cover maxBins c.blockSize)

/-- As many tiles of a row as the cap allows, and then as many rows. -/
def privatizedGrid (c : Config) (r : Region) : Grid :=
  let x := min c.maxGridSize (c.blocksX r.columns)
  ⟨x, min r.rows (c.maxGridSize / x)⟩

/-- A block for every tile of every row. -/
def globalGrid (c : Config) (r : Region) : Grid := ⟨c.blocksX r.columns, r.rows⟩

/-- The grid of the counting launch. -/
def countingGrid (c : Config) (r : Region) : Strategy → Grid
  | .privatized => c.privatizedGrid r
  | .global => c.globalGrid r

/-- The grid of the counting launch for rows of so many tiles. -/
def gridOf (c : Config) (blocksX rows : Nat) : Strategy → Grid
  | .privatized =>
    let x := min c.maxGridSize blocksX
    ⟨x, min rows (c.maxGridSize / x)⟩
  | .global => ⟨blocksX, rows⟩

theorem gridOf_blocksX (c : Config) (r : Region) (s : Strategy) :
    c.gridOf (c.blocksX r.columns) r.rows s = c.countingGrid r s := by
  cases s <;> rfl

/-- The lanes of the counting launch as the log gives them. Global launches may have more lanes than
there are indices, and then the greatest index stands for them. -/
def launchSize (c : Config) (r : Region) (s : Strategy) : Nat :=
  let lanes := (c.countingGrid r s).size * c.blockSize
  match s with
  | .privatized => lanes
  | .global => min lanes (addressLimit - 1)

end Config

/-! ## Counting -/

namespace Pass

/-- The kernel of a strategy. -/
def kernel (p : Pass σ) : Strategy → Block → BlockRun
  | .privatized => p.privatized
  | .global => p.global

/-- The bins of the channel with the most. -/
def maxBins (p : Pass σ) : Nat := p.bins.foldl max 0

/-- The operations of a launch, block after block. -/
def launchOps (grid : Grid) (lanes : Nat) (kernel : Block → BlockRun) : List CounterOp :=
  (grid.launch lanes (kernel · |>.ops)).flatten

/-- The operations of the launch that sets the counters to zero. -/
def zeroOps (p : Pass σ) (c : Config) : List CounterOp :=
  launchOps (c.zeroGrid p.maxBins) c.blockSize p.zero

/-- The operations of the launch that counts. -/
def countOps (p : Pass σ) (c : Config) (s : Strategy) : List CounterOp :=
  launchOps (c.countingGrid p.region s) c.blockSize (p.kernel s)

/-- The operations of a counting call and its log. -/
def count (p : Pass σ) (c : Config) : List CounterOp × List LogLine :=
  let logger : Logger := ⟨c.verbosity⟩
  let region := logger.region p.region.columns p.region.rows (c.blocksX p.region.columns)
  let (zeroed, zeroing) := logger.time "init_histogram" p.maxBins fun _ => p.zeroOps c
  if p.region.isEmpty then
    (zeroed, region ++ zeroing ++ logger.warn "empty sample region, counters zeroed only")
  else
    let s := c.strategy p.totalBins
    let chosen := logger.strategy s.name p.totalBins c.privatizedMaxBins
    let (counted, counting) :=
      logger.time s.launchName (c.launchSize p.region s) fun _ => p.countOps c s
    (zeroed ++ counted, region ++ zeroing ++ chosen ++ counting)

end Pass

/-! ## Calls -/

/-- What a caller keeps from call to call. -/
@[ext] structure Memory (k : IntKind) where
  counters : Counters k
  storageSize : Nat
deriving DecidableEq

/-- What a call answers besides the memory. -/
structure Answer (ℓ : Type) where
  result : Except (RequestError ℓ) Unit
  log : List LogLine

/-- The pass of an accepted counting call. -/
def Request.pass (r : Request σ ℓ) (c : Config) (region : Region) (mappers : List (Mapper σ)) :
    Pass σ :=
  { channels := r.channels, samples := r.samples, region, mappers, itemsPerLane := c.itemsPerLane }

/-- The sizes of the first `active` counter arrays. -/
def Memory.sizes (memory : Memory k) (active : Nat) : List Nat :=
  (memory.counters.toList.take active).map (·.size)

/-- Makes one call on the first `active` counter arrays. -/
def Memory.call [Level ℓ] (memory : Memory k) (c : Config) (format : SampleFormat σ ℓ)
    (r : Request σ ℓ) (active : Nat) : Memory k × Answer ℓ :=
  match r.accept format (memory.sizes active) with
  | .error e => (memory, ⟨.error e, []⟩)
  | .ok .sizing =>
    ({ memory with storageSize := storageBytes },
      ⟨.ok (), Logger.storageSize ⟨c.verbosity⟩ storageBytes⟩)
  | .ok (.counting region mappers) =>
    let (ops, log) := (r.pass c region mappers).count c
    ({ memory with counters := replay ops memory.counters }, ⟨.ok (), log⟩)

end LaneGrid
