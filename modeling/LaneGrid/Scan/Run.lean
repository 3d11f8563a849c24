import LaneGrid.Scan.Chunks
import LaneGrid.Scan.Plan

/-!
# Block scans

The scan of one value (or several consecutive ones) per lane of a block, built from lockstep groups:

1. every group scans its own lanes;
2. the last lane of every group publishes its value in the group's slot (barrier);
3. one group scans the slots (barrier);
4. every group but the first combines the slot of the group before it with its own lanes, and an
   exclusive scan then hands every value one lane up.

With several values per lane, every lane first combines its own ones, the block scans those, and the
lane runs along its values again from the result.

* `ScanMethod.finish`, `ScanMethod.expand`: what is particular to a method, which is how it ends.
* `ScanPlan.scanWith`: the scan of every method, for every way to carry out its phases
  (`ScanPhases`).
* `ScanPlan.runVia`: the scan with nothing but the scan of a group left open. `ScanPlan.run` is the
  one by the plan's own groups.

Every scan also gives the slots it leaves. The last of them is the whole block combined, without any
seed (`Scanned.total`).
-/

namespace LaneGrid

variable {α : Type}

/-! ## Results -/

/-- The shared slots of a block, one per group while a scan runs. -/
structure Storage (α : Type) where
  slots : List α := []
deriving DecidableEq

/-- What a scan leaves: one value per input value, and the slots. -/
structure Scanned (α : Type) where
  output : List α
  slots : List α
deriving DecidableEq

/-- The whole block combined, without a seed: the last slot. -/
def Scanned.total (r : Scanned α) : Option α := r.slots.getLast?

/-! ## Methods -/

namespace ScanPlan

/-- Combines a group's lanes with what stands before the group. -/
def withPrefix (op : α → α → α) : Option α → List α → List α
  | none, lanes => lanes
  | some before, lanes => lanes.map (op before)

/-- What stands before each group: nothing before the first, then the slots. -/
def prefixes (slots : List α) : List (Option α) := none :: slots.map some

/-- All values of one lane combined. -/
def reduceLane (op : α → α → α) : List α → Option α
  | [] => none
  | x :: rest => some (rest.foldl op x)

/-- The running values of one lane's items after what stands before the lane. -/
def expandInclusive (op : α → α → α) : Option α → List α → List α
  | some before, items => (items.scanl op before).tail
  | none, [] => []
  | none, x :: rest => rest.scanl op x

/-- The values before each of one lane's items, given what stands before the lane. -/
def expandExclusive (op : α → α → α) (before : α) (items : List α) : List α :=
  (items.scanl op before).dropLast

/-- Expands the lanes after an unseeded scan of their reductions: nothing stands before lane 0,
whatever that scan leaves there. -/
def inclusiveItems (op : α → α → α) (items : List (List α)) (before : List α) : List α :=
  (List.zipWith (expandInclusive op) (prefixes before.tail) items).flatten

end ScanPlan

namespace ScanMethod

open ScanPlan (withPrefix inclusiveItems expandExclusive)

/-- The output of one group in phase 4, from the slot before it and from its scanned lanes. With
several values per lane, it is the lanes' reductions that are scanned. -/
def finish (op : α → α → α) : ScanMethod α → Option α → List α → List α
  | .inclusive => withPrefix op
  | .exclusive init | .exclusiveBlocked init => fun slot lanes =>
    let before := slot.elim init (op init)
    shiftUp (some before) (withPrefix op (some before) lanes)
  -- lane 0 keeps its own value
  | .unseeded | .inclusiveBlocked => fun slot lanes => shiftUp slot (withPrefix op slot lanes)

/-- The output of all lanes, from the items of every lane and from what the scan of the lanes'
reductions leaves. -/
def expand (op : α → α → α) : ScanMethod α → List (List α) → List α → List α
  | .inclusiveBlocked => inclusiveItems op
  | .exclusiveBlocked _ => fun items before =>
    (List.zipWith (expandExclusive op) before items).flatten
  | .inclusive | .exclusive _ | .unseeded => fun _ output => output

end ScanMethod

/-! ## Scans -/

/-- A way to carry out what the lanes of a block do together. -/
structure ScanPhases (m : Type → Type) (α : Type) where
  /-- Looks at the lengths of an input and an output of one value per lane. -/
  checkFlat : Nat → Nat → m Unit
  /-- Looks at the lengths of an input and an output of several values per lane. -/
  checkItems : Nat → Nat → m Unit
  /-- Phase 1 for the lanes of one group. -/
  scanGroup : List α → m (List α)
  /-- Phases 2 and 3, from the scanned lanes of all groups to the slots. -/
  scanSlots : List (List α) → m (List α)

namespace ScanPlan

variable {m : Type → Type} [Monad m]

/-- Phase 4. -/
def finishGroups (finish : Option α → List α → List α) (scanned : List (List α)) (slots : List α) :
    Scanned α :=
  ⟨(List.zipWith finish (prefixes slots) scanned).flatten, slots⟩

/-- Scans one value per lane. -/
def scanLanes (s : ScanPlan) (phases : ScanPhases m α) (finish : Option α → List α → List α)
    (input : List α) (outputLength : Nat) : m (Scanned α) := do
  phases.checkFlat input.length outputLength
  let scanned ← (chunks s.groupSize input).mapM phases.scanGroup
  let slots ← phases.scanSlots scanned
  return finishGroups finish scanned slots

/-- The items of every lane. -/
def laneItems (s : ScanPlan) (input : List α) : List (List α) :=
  chunks (input.length / s.blockSize) input

/-- What the lanes' own values come to. -/
def reductions (s : ScanPlan) (op : α → α → α) (input : List α) : List α :=
  (s.laneItems input).filterMap (reduceLane op)

/-- What the scan of the reductions makes of the input. -/
def expandLanes (s : ScanPlan) (method : ScanMethod α) (op : α → α → α) (input : List α)
    (lanes : Scanned α) : Scanned α :=
  { lanes with output := method.expand op (s.laneItems input) lanes.output }

/-- Scans an input of one or several values per lane into an output of `outputLength` values. -/
def scanWith (s : ScanPlan) (phases : ScanPhases m α) (method : ScanMethod α) (op : α → α → α)
    (input : List α) (outputLength : Nat) : m (Scanned α) :=
  if method.isBlocked then do
    phases.checkItems input.length outputLength
    let reductions := s.reductions op input
    let lanes ← s.scanLanes phases (method.finish op) reductions reductions.length
    return s.expandLanes method op input lanes
  else s.scanLanes phases (method.finish op) input outputLength

/-! ## Scans by way of a group's scan -/

/-- The lanes that publish in phase 2: the last one of every group, in group order. -/
def publishers (s : ScanPlan) : List Nat :=
  (List.range s.blockSize).filter fun lane =>
    lane + 1 = min ((lane / s.groupSize + 1) * s.groupSize) s.blockSize

/-- The slots after phase 2. -/
def published (s : ScanPlan) (scanned : List (List α)) : List α :=
  let lanes := scanned.flatten.toArray
  s.publishers.filterMap (lanes[·]?)

/-- Phases without checks, in which `scanGroup` scans the lanes of every group and the slots. -/
def phasesVia (s : ScanPlan) (scanGroup : List α → m (List α)) : ScanPhases m α where
  checkFlat _ _ := pure ()
  checkItems _ _ := pure ()
  scanGroup
  scanSlots scanned := scanGroup (s.published scanned)

/-- The scan of an input of an accepted shape, with the scan of a group left open. -/
def runVia (s : ScanPlan) (scanGroup : List α → m (List α)) (method : ScanMethod α)
    (op : α → α → α) (input : List α) : m (Scanned α) :=
  s.scanWith (s.phasesVia scanGroup) method op input input.length

/-- The scan of an input of an accepted shape. -/
def run (s : ScanPlan) (method : ScanMethod α) (op : α → α → α) (input : List α) : Scanned α :=
  Id.run (s.runVia (fun lanes => pure (s.lockstep.scan op lanes)) method op input)

/-- Exclusive without a seed. -/
def unseeded (s : ScanPlan) (op : α → α → α) (input : List α) : Scanned α :=
  s.run .unseeded op input

end ScanPlan

end LaneGrid
