import LaneGrid.InvalidArgument

/-!
# Lockstep groups

A lockstep group is a power-of-two number of lanes that execute together, so that every lane's value
is there when a group-wide step begins. The one step that blocks are built on is the inclusive scan
of a group.

* `Lockstep`: a kind of scan and the width of a group; `Lockstep.build` refuses a width that is not
  a power of two.
* `Lockstep.scanLanes`: the scan, in place. `shuffle` combines every lane with the lane an offset
  below it, for the offsets 1, 2, 4, …; `serial` runs along the lanes once.
* `ceilPowerOfTwo`: rounds up to a power of two, which passes none (`ceilPowerOfTwo_le_iff`).
* `groupSize`: how many lanes a group of a block has.
* `shiftUp`: hands every lane's value to the lane above it.

The operator is only ever applied to a lower lane's value on the left and a higher lane's on the
right: nothing here asks it to be commutative, and the offsets alone decide how it associates.
-/

namespace LaneGrid

variable {α : Type}

/-! ## Groups -/

/-- How a group scans its lanes. -/
inductive LockstepKind where
  /-- Offsets that double: each lane combines with the lane an offset below. -/
  | shuffle
  /-- A running fold from lane to lane. -/
  | serial
deriving DecidableEq

/-- A way to scan groups of up to `width` lanes. -/
structure Lockstep where
  kind : LockstepKind
  width : Nat
  width_pow : width.isPowerOfTwo

/-- A group cannot be this wide. -/
structure WidthError where
  width : Nat
deriving DecidableEq

def WidthError.report (e : WidthError) : InvalidArgument where
  argument := "width"
  reason := "lockstep width must be a non-zero power of two, got " ++ toString e.width

namespace Lockstep

/-- A group's width is a power of two. -/
def build (kind : LockstepKind) (width : Nat) : Except WidthError Lockstep :=
  if h : width.isPowerOfTwo then .ok ⟨kind, width, h⟩ else .error ⟨width⟩

/-- The width of the machine's own groups. -/
def nativeWidth : Nat := 64

/-- Shuffling groups of the machine's own width. -/
def native : Lockstep := ⟨.shuffle, nativeWidth, 6, rfl⟩

instance : Inhabited Lockstep := ⟨native⟩

/-! ## The scan of a group -/

/-- Combines lane `lane` with the lane `offset` below it, in place. -/
def combine (op : α → α → α) (offset lane : Nat) (lanes : Array α) : Array α :=
  match lanes[lane - offset]?, lanes[lane]? with
  | some below, some own => lanes.setIfInBounds lane (op below own)
  | _, _ => lanes

/-- Combines every lane that has a lane `offset` below it, from the last one down to lane `offset`,
so that each reads a value of the pass before. -/
def shufflePass (op : α → α → α) (offset : Nat) (lanes : Array α) : Array α :=
  (List.range' offset (lanes.size - offset)).foldr (combine op offset) lanes

/-- The passes at `offset`, `2 * offset`, … as long as the offset is below `count`. -/
def shufflePasses (op : α → α → α) (count offset : Nat) (lanes : Array α) : Array α :=
  if 0 < offset ∧ offset < count then
    shufflePasses op count (2 * offset) (shufflePass op offset lanes)
  else lanes
termination_by count - offset

/-- Combines lane 1, then lane 2, and so on, each with the lane below it. -/
def serialPass (op : α → α → α) (lanes : Array α) : Array α :=
  (List.range' 1 (lanes.size - 1)).foldl (fun lanes lane => combine op 1 lane lanes) lanes

/-- The inclusive scan of one group: lane `i` ends with the lanes `0` to `i` combined in order. -/
def scanLanes (l : Lockstep) (op : α → α → α) (lanes : Array α) : Array α :=
  match l.kind with
  | .shuffle => shufflePasses op lanes.size 1 lanes
  | .serial => serialPass op lanes

/-- `scanLanes` on a list of lanes. -/
def scan (l : Lockstep) (op : α → α → α) (lanes : List α) : List α :=
  (l.scanLanes op lanes.toArray).toList

/-! ## No lane is lost -/

@[simp] theorem size_combine (op : α → α → α) (offset lane : Nat) (lanes : Array α) :
    (combine op offset lane lanes).size = lanes.size := by
  unfold combine
  split
  · exact Array.size_setIfInBounds
  · rfl

@[simp] theorem size_shufflePass (op : α → α → α) (offset : Nat) (lanes : Array α) :
    (shufflePass op offset lanes).size = lanes.size := by
  unfold shufflePass
  induction List.range' offset (lanes.size - offset) with
  | nil => rfl
  | cons lane rest ih => rw [List.foldr_cons, size_combine, ih]

@[simp] theorem size_shufflePasses (op : α → α → α) (count offset : Nat) (lanes : Array α) :
    (shufflePasses op count offset lanes).size = lanes.size := by
  fun_induction shufflePasses op count offset lanes with
  | case1 offset lanes _ ih => rw [ih, size_shufflePass]
  | case2 => rfl

@[simp] theorem size_serialPass (op : α → α → α) (lanes : Array α) :
    (serialPass op lanes).size = lanes.size := by
  unfold serialPass
  generalize lanes.size - 1 = count
  induction List.range' 1 count generalizing lanes with
  | nil => rfl
  | cons lane rest ih => rw [List.foldl_cons, ih, size_combine]

@[simp] theorem length_scan (l : Lockstep) (op : α → α → α) (lanes : List α) :
    (l.scan op lanes).length = lanes.length := by
  unfold scan scanLanes
  cases l.kind <;> simp

end Lockstep

/-! ## Groups of a block -/

/-- The smallest power of two that is no less than `n`. -/
def ceilPowerOfTwo (n : Nat) : Nat := if n ≤ 1 then 1 else Nat.pow 2 ((n - 1).log2 + 1)

theorem isPowerOfTwo_ceilPowerOfTwo (n : Nat) : (ceilPowerOfTwo n).isPowerOfTwo := by
  unfold ceilPowerOfTwo
  split
  · exact Nat.isPowerOfTwo_one
  · exact ⟨_, rfl⟩

theorem ceilPowerOfTwo_le_iff {n w : Nat} (hw : w.isPowerOfTwo) : ceilPowerOfTwo n ≤ w ↔ n ≤ w := by
  obtain ⟨k, rfl⟩ := hw
  have hpos : 0 < 2 ^ k := Nat.two_pow_pos k
  unfold ceilPowerOfTwo
  split
  · omega
  · have hlog : (n - 1).log2 < k ↔ n - 1 < 2 ^ k := Nat.log2_lt (by omega)
    rw [Nat.pow_eq, Nat.pow_le_pow_iff_right Nat.one_lt_two]
    omega

/-- The lanes of a group in a block of `lanes` lanes: the full width, or the smallest power of two
that covers a narrower block. -/
def groupSize (width lanes : Nat) : Nat := min width (ceilPowerOfTwo lanes)

/-- Every lane receives the value of the lane below it; lane 0 receives `lane0`, or keeps its own
value if there is none. -/
def shiftUp (lane0 : Option α) : List α → List α
  | [] => []
  | own :: above => lane0.getD own :: (own :: above).dropLast

@[simp] theorem length_shiftUp (lane0 : Option α) (lanes : List α) :
    (shiftUp lane0 lanes).length = lanes.length := by
  cases lanes <;> simp [shiftUp]

end LaneGrid
