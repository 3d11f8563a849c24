import LaneGrid.Lockstep
import LaneGrid.Grid

/-!
# Scan plans

How a block is scanned: how many lanes it has, which lockstep groups scan them, and what it is given
to scan.

* `ScanPlan.build`: a block needs a lane, and no more groups than one group can scan, since one
  group scans what the groups come to.
* `ScanMethod`: the ways to scan, with one value per lane or several.
* `ScanPlan.checkFlat`, `ScanPlan.checkItems`: the shapes of block, input and output that a scan
  refuses, and in which order (`ShapeError`).
-/

namespace LaneGrid

variable {α : Type}

/-! ## Plans -/

/-- A block of `blockSize` lanes and the lockstep groups that scan it. -/
structure ScanPlan where
  lockstep : Lockstep
  blockSize : Nat
  blockSize_pos : 0 < blockSize
  groups_le : ceilPowerOfTwo (cover blockSize (groupSize lockstep.width blockSize)) ≤ lockstep.width

/-- Why a block cannot be scanned. -/
inductive BlockSizeError where
  | noLanes
  /-- The slots of `groups` groups do not fit in one group of the given width. -/
  | tooManyGroups (blockSize groups width : Nat)
deriving DecidableEq

def BlockSizeError.report : BlockSizeError → InvalidArgument
  | .noLanes => ⟨"block_size", "must be at least 1"⟩
  | .tooManyGroups blockSize groups width =>
    ⟨"block_size", toString blockSize ++ " lanes need " ++ toString groups ++
      " groups, more than one group of width " ++ toString width ++ " can scan"⟩

namespace ScanPlan

/-- A scan for blocks of `blockSize` lanes. -/
def build (blockSize : Nat) (lockstep : Lockstep) : Except BlockSizeError ScanPlan :=
  if hb : 0 < blockSize then
    let groups := cover blockSize (groupSize lockstep.width blockSize)
    if hg : ceilPowerOfTwo groups ≤ lockstep.width then .ok ⟨lockstep, blockSize, hb, hg⟩
    else .error (.tooManyGroups blockSize groups lockstep.width)
  else .error .noLanes

/-- The lanes of every group but possibly the last. -/
def groupSize (s : ScanPlan) : Nat := LaneGrid.groupSize s.lockstep.width s.blockSize

/-- The number of groups. -/
def groups (s : ScanPlan) : Nat := cover s.blockSize s.groupSize

end ScanPlan

/-! ## Methods -/

/-- The ways to scan a block. -/
inductive ScanMethod (α : Type) where
  | inclusive
  | exclusive (init : α)
  /-- Exclusive without a seed: lane 0 has no value. -/
  | unseeded
  | inclusiveBlocked
  | exclusiveBlocked (init : α)

/-- Whether every lane may hold several values. -/
def ScanMethod.isBlocked : ScanMethod α → Bool
  | .inclusive | .exclusive _ | .unseeded => false
  | .inclusiveBlocked | .exclusiveBlocked _ => true

/-! ## Refused shapes -/

/-- Why a scan refuses its block, input and output. -/
inductive ShapeError where
  | blockDiffers
  | inputLength
  | outputLength
  | lengthsDiffer
  | notMultiple (length blockSize : Nat)
deriving DecidableEq

def ShapeError.message : ShapeError → String
  | .blockDiffers => "block size mismatch"
  | .inputLength => "input must hold one value per lane"
  | .outputLength => "output must hold one value per lane"
  | .lengthsDiffer => "input and output lengths differ"
  | .notMultiple length blockSize =>
    "input length " ++ toString length ++ " is not a positive multiple of block size " ++
      toString blockSize

namespace ScanPlan

/-- One value per lane: the block, the input and the output have the scan's size. -/
def checkFlat (s : ScanPlan) (block input output : Nat) : Except ShapeError Unit :=
  if block ≠ s.blockSize then .error .blockDiffers
  else if input ≠ s.blockSize then .error .inputLength
  else if output ≠ s.blockSize then .error .outputLength
  else .ok ()

/-- Several values per lane: input and output are equally long and divide evenly among the lanes. -/
def checkItems (s : ScanPlan) (input output : Nat) : Except ShapeError Unit :=
  if input ≠ output then .error .lengthsDiffer
  else if input < s.blockSize ∨ input % s.blockSize ≠ 0 then .error (.notMultiple input s.blockSize)
  else .ok ()

end ScanPlan

end LaneGrid
