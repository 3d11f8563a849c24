import LaneGrid.Histogram.MachineKernels

/-!
# Histogram calls on a machine

A counting call on a machine may stop on its way: where the pool that it asks for is not to be had,
where a number is no index, or where the tiles of a row come out as empty.

* `Machine.blocksX`, `Machine.launchSize`: the numbers that a call comes by before it launches.
* `Pass.countOn`: a counting call up to its end or to where it stops.
* `Memory.callOn`: one call. Where all its numbers are indices, it is `Memory.call`.
-/

namespace LaneGrid

variable {σ ℓ : Type} {k : IntKind}

namespace Machine

/-- Tiles, and so blocks, that cover one row. -/
def blocksX (m : Machine) (c : Config) (columns : Nat) : Except Stop Nat := do
  let tile ← m.index c.tile
  if tile = 0 then .error .emptyTile else return cover columns tile

/-- The lanes of the counting launch as the log gives them. -/
def launchSize (m : Machine) (c : Config) (g : Grid) : Strategy → Except Stop Nat
  | .privatized => m.index (g.size * c.blockSize)
  | .global => .ok (min (g.size * c.blockSize) (addressLimit - 1))

end Machine

/-! ## Counting -/

/-- What a counting call has done to the counters, and its log. -/
structure Progress where
  run : Walk CounterOp
  log : List LogLine

/-- A counting call on a machine. A launch that stops is not timed. -/
def Pass.countOn (p : Pass σ) (m : Machine) (c : Config) : Progress :=
  let logger : Logger := ⟨c.verbosity⟩
  match m.blocksX c p.region.columns with
  | .error stop => ⟨.stopped stop, []⟩
  | .ok blocksX =>
  let region := logger.region p.region.columns p.region.rows blocksX
  match m.start c.workers with
  | .error stop => ⟨.stopped stop, region⟩
  | .ok () =>
  let (zeroed, zeroing) := logger.time "init_histogram" p.maxBins fun _ =>
    m.launch (c.zeroGrid p.maxBins) c.blockSize (p.zeroOn m)
  match zeroed.stop with
  | some _ => ⟨zeroed, region⟩
  | none =>
  if p.region.isEmpty then
    ⟨zeroed, region ++ zeroing ++ logger.warn "empty sample region, counters zeroed only"⟩
  else
    let s := c.strategy p.totalBins
    let grid := c.gridOf blocksX p.region.rows s
    let chosen := logger.strategy s.name p.totalBins c.privatizedMaxBins
    match m.launchSize c grid s with
    | .error stop => ⟨zeroed.append (.stopped stop), region ++ zeroing ++ chosen⟩
    | .ok size =>
    let (counted, counting) := logger.time s.launchName size fun _ =>
      m.launch grid c.blockSize (p.kernelOn m s)
    match counted.stop with
    | some _ => ⟨zeroed.append counted, region ++ zeroing ++ chosen⟩
    | none => ⟨zeroed.append counted, region ++ zeroing ++ chosen ++ counting⟩

/-! ## Calls -/

/-- Why a call gives no result. -/
inductive CallError (ℓ : Type) where
  | refused (error : RequestError ℓ)
  | stopped (stop : Stop)
deriving DecidableEq

/-- What a call on a machine answers besides the memory. -/
structure MachineAnswer (ℓ : Type) where
  result : Except (CallError ℓ) Unit
  log : List LogLine

/-- An answer of a call that nothing stops. -/
def Answer.unstopped (a : Answer ℓ) : MachineAnswer ℓ :=
  ⟨a.result.mapError .refused, a.log⟩

/-- How a counting call ends. -/
def Progress.result (progress : Progress) : Except (CallError ℓ) Unit :=
  match progress.run.stop with
  | none => .ok ()
  | some stop => .error (.stopped stop)

theorem Progress.result_eq_ok_iff {progress : Progress} :
    (progress.result : Except (CallError ℓ) Unit) = .ok () ↔ progress.run.stop = none := by
  unfold result
  cases progress.run.stop <;> simp

/-- Makes one call on the first `active` counter arrays. -/
def Memory.callOn [Level ℓ] (memory : Memory k) (m : Machine) (c : Config)
    (format : SampleFormat σ ℓ) (r : Request σ ℓ) (active : Nat) : Memory k × MachineAnswer ℓ :=
  match r.accept format (memory.sizes active) with
  | .error e => (memory, ⟨.error (.refused e), []⟩)
  | .ok .sizing =>
    ({ memory with storageSize := storageBytes },
      ⟨.ok (), Logger.storageSize ⟨c.verbosity⟩ storageBytes⟩)
  | .ok (.counting region mappers) =>
    let progress := (r.pass c region mappers).countOn m c
    ({ memory with counters := replay progress.run.done memory.counters },
      ⟨progress.result, progress.log⟩)

end LaneGrid
