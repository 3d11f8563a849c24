import LaneGrid.Histogram.Machine
import LaneGrid.Histogram.Call

/-!
# Histogram kernels on a machine

The kernels of a pass as a machine runs them: every column, every place of a tile and every counter
that a block comes to is an index. Where all of these numbers are indices, the kernels are those of
the pass; where one of them is not, a block may read other pixels, or stop.

* `Machine.laneColumns`, `Pass.rowColumnsOn`: the columns that one lane reads of one tile, and that
  a block reads of one row.
* `Pass.privatizedVisitsOn`, `Pass.globalVisitsOn`: the pixels that a block reads.
* `Pass.kernelOn`: what a block does to the counters. A block with counters of its own adds them up
  at the end, and so nothing at all if it stops.

The samples of a pixel lie where they do in the pass. A block reads pixels of the region only, and
the samples of a region have indices before any kernel is run.
-/

namespace LaneGrid

variable {σ : Type}

/-- The columns of a lane's items from number `item` on, up to the first one beyond the row. -/
def Machine.laneColumns (m : Machine) (columns size offset lane : Nat) : Nat → Nat → Walk Nat
  | 0, _ => .ofList []
  | items + 1, item =>
    m.withIndex (offset + item * size + lane) fun column =>
      if column < columns then
        (Walk.ofList [column]).append (m.laneColumns columns size offset lane items (item + 1))
      else .ofList []

namespace Pass

/-! ## Pixels -/

/-- The columns of one tile, lane after lane. -/
def tileColumnsOn (p : Pass σ) (m : Machine) (size offset : Nat) : Walk Nat :=
  .each (List.range size) fun lane =>
    m.laneColumns p.region.columns size offset lane p.itemsPerLane 0

/-- The columns that a block reads in a row: the tiles `x`, `x + grid.x`, …. -/
def rowColumnsOn (p : Pass σ) (m : Machine) (b : Block) (tile : Nat) : Walk Nat :=
  m.withIndex (b.index.x * tile) fun start =>
  m.withIndex (b.grid.x * tile) fun step =>
  .strided start p.region.columns step (p.tileColumnsOn m b.size)

/-- The pixels that a block reads in the rows below `stop`. -/
def visitsBelow (p : Pass σ) (m : Machine) (b : Block) (stop : Nat) : Walk Pixel :=
  m.withIndex (b.size * p.itemsPerLane) fun tile =>
  .strided b.index.y stop b.grid.y fun row => (p.rowColumnsOn m b tile).map (⟨row, ·⟩)

/-- The pixels that a block with counters of its own reads. -/
def privatizedVisitsOn (p : Pass σ) (m : Machine) (b : Block) : Walk Pixel :=
  p.visitsBelow m b p.region.rows

/-- The pixels that a block reads which counts straight into the counters: tile `x` of row `y`. -/
def globalVisitsOn (p : Pass σ) (m : Machine) (b : Block) : Walk Pixel :=
  m.withIndex (b.index.x * (b.size * p.itemsPerLane)) fun offset =>
  (p.tileColumnsOn m b.size offset).map (⟨b.index.y, ·⟩)

/-! ## Counters -/

/-- Sets one counter per lane to zero, in every channel that has it. -/
def zeroOn (p : Pass σ) (m : Machine) (b : Block) : Walk CounterOp :=
  .each b.lanes fun lane =>
  m.withIndex (b.index.x * b.size + lane) fun index =>
  .ofList (p.bins.zipIdx.filterMap fun (bins, channel) =>
    if index < bins then some (.reset channel index) else none)

/-- The block-local counters after all pixels of a block. Of rows without a stride between them only
the first one is read, and counted as often as there are rows (`tallyOn_eq`). -/
def tallyOn (p : Pass σ) (m : Machine) (b : Block) : Except Stop (Array (Word .u32)) :=
  if p.region.stride = 0 then do
    let rows := cover (p.region.rows - b.index.y) b.grid.y
    let visits ← (p.visitsBelow m b (min p.region.rows (b.index.y + 1))).finish
    return (p.tallyOf visits).map (·.mul (.ofInt rows))
  else p.tallyOf <$> (p.privatizedVisitsOn m b).finish

/-- Counts in block-local counters and adds those up at the end. -/
def privatizedOn (p : Pass σ) (m : Machine) (b : Block) : Walk CounterOp :=
  match p.tallyOn m b with
  | .ok tally => .ofList (flush p.bins b.size tally)
  | .error stop => .stopped stop

/-- Adds one for every sample in range. -/
def globalOn (p : Pass σ) (m : Machine) (b : Block) : Walk CounterOp :=
  (p.globalVisitsOn m b).flatMap fun pixel =>
    (p.hits pixel).map fun (channel, bin) => .add channel bin (.ofInt 1)

/-- The kernel of a strategy. -/
def kernelOn (p : Pass σ) (m : Machine) : Strategy → Block → Walk CounterOp
  | .privatized => p.privatizedOn m
  | .global => p.globalOn m

end Pass

end LaneGrid
