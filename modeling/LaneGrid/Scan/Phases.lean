import LaneGrid.Scan.Run

/-!
# Scans on a running block

A scan as it changes the block and the storage that it runs on, phase by phase. One that is refused
stops where its shape is found to be wrong, and whatever it had changed by then stays changed.

* `Shared`: the block and the storage; `SharedScan`: a computation on them that may be refused.
* `ScanPlan.publish`, `ScanPlan.scanSlots`: the phases that use the storage, each up to its barrier.
* `ScanPlan.scanOn`: the scan of every method on a running block. `ScanPlan.scan` is the one on a
  block and a storage of its own.
-/

namespace LaneGrid

variable {α : Type}

/-- What a scan runs on. -/
structure Shared (α : Type) where
  block : Block
  storage : Storage α

/-- A computation on a running block and its storage, which may be refused. -/
abbrev SharedScan (α : Type) := ExceptT ShapeError (StateM (Shared α))

namespace Shared

/-- A block by itself with a fresh storage. -/
def fresh (lanes : Nat) : Shared α := ⟨.standalone lanes, {}⟩

def updateSlots (f : List α → List α) (state : Shared α) : Shared α :=
  { state with storage := ⟨f state.storage.slots⟩ }

/-- The block passes one barrier. -/
def sync (state : Shared α) : Shared α := { state with block := state.block.sync }

end Shared

namespace ScanPlan

/-! ## Phases on the storage -/

/-- The last lane of a group adds its value to the slots. -/
def publishLane (s : ScanPlan) (lanes : Array α) (lane : Nat) (slots : List α) : List α :=
  if lane + 1 = min ((lane / s.groupSize + 1) * s.groupSize) s.blockSize then
    slots ++ lanes[lane]?.toList
  else slots

/-- Phase 2: the slots are cleared, and then every lane of the block publishes. -/
def publish (s : ScanPlan) (scanned : List (List α)) (state : Shared α) : Shared α :=
  let lanes := scanned.flatten.toArray
  let cleared := state.updateSlots fun _ => []
  let published := cleared.block.lanes.foldl
    (fun state lane => state.updateSlots (s.publishLane lanes lane)) cleared
  published.sync

/-- Phase 3: one group scans a slot for every group. -/
def scanSlots (s : ScanPlan) (op : α → α → α) (state : Shared α) : Shared α :=
  let combined := state.updateSlots fun slots =>
    s.lockstep.scan op (slots.take s.groups) ++ slots.drop s.groups
  combined.sync

/-! ## Scans -/

/-- The phases on the block and the storage. -/
def phasesOn (s : ScanPlan) (op : α → α → α) : ScanPhases (SharedScan α) α where
  checkFlat input output := do
    let block := (← get).block
    ofExcept (s.checkFlat block.size input output)
  checkItems input output := ofExcept (s.checkItems input output)
  scanGroup lanes := pure (s.lockstep.scan op lanes)
  scanSlots scanned := do
    modify (s.publish scanned)
    modify (s.scanSlots op)
    return (← get).storage.slots

/-- Scans `input` into an output of `outputLength` values on the block and the storage. -/
def scanOn (s : ScanPlan) (method : ScanMethod α) (op : α → α → α) (input : List α)
    (outputLength : Nat) : SharedScan α (Scanned α) :=
  s.scanWith (s.phasesOn op) method op input outputLength

/-- Scans `input` on a block and a storage of its own. -/
def scan (s : ScanPlan) (method : ScanMethod α) (op : α → α → α) (input : List α)
    (outputLength : Nat) : Except ShapeError (Scanned α) :=
  ((s.scanOn method op input outputLength).run.run (.fresh s.blockSize)).1

end ScanPlan

end LaneGrid
