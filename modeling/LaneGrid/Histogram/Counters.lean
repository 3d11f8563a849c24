import LaneGrid.Word

/-!
# Counters

A histogram's counters are words of any kind, in one array per channel. Blocks change them by
operations that the memory carries out one at a time: setting a counter to zero, and adding to it.

* `CounterOp`: one operation, with the channel and the bin it is on.
* `CounterOp.apply`, `replay`: what one operation, and a list of them, makes of the counters. An
  operation on a counter that does not exist changes nothing.
-/

namespace LaneGrid

variable {k : IntKind}

/-- Adds a 32-bit count, whose bits are taken over into the counter's kind; the sum wraps. -/
def Word.addCount (w : Word k) (count : Word .u32) : Word k := w.add (count.recast k)

/-- The counters of every channel. -/
abbrev Counters (k : IntKind) := Array (Array (Word k))

/-- One operation on a counter. -/
inductive CounterOp where
  | reset (channel bin : Nat)
  | add (channel bin : Nat) (count : Word .u32)
deriving DecidableEq

namespace CounterOp

def channel : CounterOp → Nat
  | .reset c _ | .add c _ _ => c

def bin : CounterOp → Nat
  | .reset _ j | .add _ j _ => j

/-- The counter after the operation. -/
def update : CounterOp → Word k → Word k
  | .reset _ _, _ => .zero
  | .add _ _ count, w => w.addCount count

/-- The counters after the operation. -/
def apply (op : CounterOp) (counters : Counters k) : Counters k :=
  counters.modify op.channel fun bins => bins.modify op.bin op.update

end CounterOp

/-- The counters after operations carried out in the order given. -/
def replay (ops : List CounterOp) (counters : Counters k) : Counters k :=
  ops.foldl (fun counters op => op.apply counters) counters

@[simp] theorem replay_nil (counters : Counters k) : replay [] counters = counters := rfl

@[simp] theorem replay_cons (op : CounterOp) (ops : List CounterOp) (counters : Counters k) :
    replay (op :: ops) counters = replay ops (op.apply counters) := rfl

theorem replay_append (ops ops' : List CounterOp) (counters : Counters k) :
    replay (ops ++ ops') counters = replay ops' (replay ops counters) :=
  List.foldl_append

@[simp] theorem size_replay (ops : List CounterOp) (counters : Counters k) :
    (replay ops counters).size = counters.size := by
  induction ops generalizing counters with
  | nil => rfl
  | cons op ops ih => rw [replay_cons, ih, CounterOp.apply, Array.size_modify]

end LaneGrid
