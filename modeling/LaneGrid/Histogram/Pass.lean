import LaneGrid.Grid
import LaneGrid.Bins.Mapper
import LaneGrid.Histogram.Counters

/-!
# Histogram kernels

A pass reads a rectangle of pixels, `channels` interleaved samples each, and counts the first few
channels of every pixel. Its kernels give the operations that one block carries out on the counters;
no operation depends on what the counters hold. Columns and tiles have numbers of any size here;
what a block does where these have to be indices is in `LaneGrid.Histogram.MachineKernels`.

* `Pass.pixelStart`: where a pixel lies in the samples. `Pass.hits`: the bins it falls into.
* `Pass.tileVisits`: the pixels that a block's lanes read in one tile. Lane `l` reads the columns
  `l`, `l + size`, `l + 2 * size`, … of the tile and stops at the first one beyond the row.
* `Pass.zero`: sets every counter of an active channel to zero.
* `Pass.privatized`: a block counts all tiles it comes to in counters of its own, one flat array
  with the channels one after another (`Pass.tally`), and adds those that are not zero at the end.
* `Pass.global`: a block adds every sample of one tile as it reads it.
-/

namespace LaneGrid

variable {σ : Type}

/-- `start`, `start + step`, `start + 2 * step`, … below `stop`. -/
def strided (start stop step : Nat) : List Nat := List.range' start (cover (stop - start) step) step

/-- A rectangle of pixels whose rows start `stride` samples apart. -/
structure Region where
  columns : Nat
  rows : Nat
  stride : Nat
deriving DecidableEq

/-- Nothing to read. -/
def Region.isEmpty (r : Region) : Bool := r.columns == 0 || r.rows == 0

/-- A pixel of a region. -/
structure Pixel where
  row : Nat
  column : Nat
deriving DecidableEq

/-- What one launch reads: one mapper per active channel. -/
structure Pass (σ : Type) where
  channels : Nat
  samples : Array σ
  region : Region
  mappers : List (Mapper σ)
  itemsPerLane : Nat

/-- What a block leaves: itself, and its operations on the counters, in order. -/
structure BlockRun where
  block : Block
  ops : List CounterOp

namespace Pass

/-! ## Pixels -/

/-- The index of a pixel's first sample. -/
def pixelStart (p : Pass σ) (pixel : Pixel) : Nat :=
  pixel.row * p.region.stride + pixel.column * p.channels

/-- The bins of the active channels of a pixel, each with its channel. -/
def hits (p : Pass σ) (pixel : Pixel) : List (Nat × Nat) :=
  p.mappers.zipIdx.filterMap fun (mapper, channel) =>
    ((p.samples[p.pixelStart pixel + channel]?).bind mapper.bin).map (channel, ·)

/-- At most `items` columns, `size` apart from `column` on, up to the first one beyond the row. -/
def laneColumns (columns size : Nat) : Nat → Nat → List Nat
  | 0, _ => []
  | items + 1, column =>
    if column < columns then column :: laneColumns columns size items (column + size) else []

/-- The pixels of one tile, lane after lane: `size` lanes in row `row` from column `offset` on. -/
def tileVisits (p : Pass σ) (size row offset : Nat) : List Pixel :=
  (List.range size).flatMap fun lane =>
    (laneColumns p.region.columns size p.itemsPerLane (offset + lane)).map (⟨row, ·⟩)

/-! ## Zeroing -/

/-- The number of counters of each active channel. -/
def bins (p : Pass σ) : List Nat := p.mappers.map (·.bins)

/-- The bins of all channels together. -/
def totalBins (p : Pass σ) : Nat := p.bins.foldl (· + ·) 0

/-- Sets one counter per lane to zero, in every channel that has it. -/
def zero (p : Pass σ) (b : Block) : BlockRun where
  block := b
  ops := b.lanes.flatMap fun lane =>
    let index := b.index.x * b.size + lane
    p.bins.zipIdx.filterMap fun (bins, channel) =>
      if index < bins then some (.reset channel index) else none

/-! ## Privatized accumulation -/

/-- Where each channel's counters start in a flat array of all of them. -/
def offsets (bins : List Nat) : List Nat := bins.scanl (· + ·) 0

/-- The pixels that a block reads in one row: the tiles `x`, `x + grid.x`, …. -/
def rowVisits (p : Pass σ) (b : Block) (row : Nat) : List Pixel :=
  let tile := b.size * p.itemsPerLane
  (strided (b.index.x * tile) p.region.columns (b.grid.x * tile)).flatMap fun offset =>
    p.tileVisits b.size row offset

/-- The pixels that a block reads: its part of the rows `y`, `y + grid.y`, …. -/
def privatizedVisits (p : Pass σ) (b : Block) : List Pixel :=
  (strided b.index.y p.region.rows b.grid.y).flatMap (p.rowVisits b)

/-- Block-local counters after a pixel more. -/
def tallyPixel (p : Pass σ) (starts : Array Nat) (tally : Array (Word .u32)) (pixel : Pixel) :
    Array (Word .u32) :=
  (p.hits pixel).foldl
    (fun tally (channel, bin) => tally.modify (starts.getD channel 0 + bin) (·.add (.ofInt 1)))
    tally

/-- Fresh block-local counters after some pixels: 32-bit words, which wrap. -/
def tallyOf (p : Pass σ) (pixels : List Pixel) : Array (Word .u32) :=
  pixels.foldl (p.tallyPixel (offsets p.bins).toArray) (Array.replicate p.totalBins .zero)

/-- The block-local counters after all pixels of a block. Rows without a stride between them all
hold the same samples: then one of them is read, and counted as often as there are rows, which comes
to the same (`tally_eq`). -/
def tally (p : Pass σ) (b : Block) : Array (Word .u32) :=
  if p.region.stride = 0 then
    let rows := cover (p.region.rows - b.index.y) b.grid.y
    (p.tallyOf (p.rowVisits b b.index.y)).map (·.mul (.ofInt rows))
  else p.tallyOf (p.privatizedVisits b)

/-- Adds a block-local counter, unless it is zero. -/
def flushBin (tally : Array (Word .u32)) (channel start bin : Nat) : Option CounterOp :=
  let count := tally.getD (start + bin) .zero
  if count = .zero then none else some (.add channel bin count)

/-- Adds the block-local counters: lane `l` those of the bins `l`, `l + size`, … of all channels. -/
def flush (bins : List Nat) (size : Nat) (tally : Array (Word .u32)) : List CounterOp :=
  (List.range size).flatMap fun lane =>
    ((bins.zip (offsets bins)).zipIdx).flatMap fun ((bins, start), channel) =>
      (strided lane bins size).filterMap (flushBin tally channel start)

/-- Counts in block-local counters and adds those up at the end; one barrier after they are made and
one before they are added. -/
def privatized (p : Pass σ) (b : Block) : BlockRun where
  block := b.sync.sync
  ops := flush p.bins b.size (p.tally b)

/-! ## Global accumulation -/

/-- The pixels that a block reads: tile `x` of row `y`. -/
def globalVisits (p : Pass σ) (b : Block) : List Pixel :=
  p.tileVisits b.size b.index.y (b.index.x * (b.size * p.itemsPerLane))

/-- Adds one for every sample in range. -/
def global (p : Pass σ) (b : Block) : BlockRun where
  block := b
  ops := (p.globalVisits b).flatMap fun pixel =>
    (p.hits pixel).map fun (channel, bin) => .add channel bin (.ofInt 1)

end Pass

end LaneGrid
