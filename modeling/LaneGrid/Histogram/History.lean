import LaneGrid.Histogram.MachineCall

/-!
# Histories of calls

Calls one after another on the same counters and the same storage size, each with samples, levels,
a configuration, a number of active channels and a machine of its own.

* `CallStep`: one call of a history. `CallStep.run` makes it.
* `Memory.after`: the memory after the calls of a history.
-/

namespace LaneGrid

variable {k : IntKind}

/-- One call with all that is given to it, apart from the memory. -/
structure CallStep where
  {σ ℓ : Type}
  [level : Level ℓ]
  machine : Machine
  config : Config
  format : SampleFormat σ ℓ
  request : Request σ ℓ
  active : Nat

attribute [instance] CallStep.level

/-- Makes the call. -/
def CallStep.run (t : CallStep) (memory : Memory k) : Memory k × MachineAnswer t.ℓ :=
  memory.callOn t.machine t.config t.format t.request t.active

/-- The memory after some calls. -/
def Memory.after (memory : Memory k) (steps : List CallStep) : Memory k :=
  steps.foldl (fun memory t => (t.run memory).1) memory

@[simp] theorem Memory.after_nil (memory : Memory k) : memory.after [] = memory := rfl

@[simp] theorem Memory.after_cons (memory : Memory k) (t : CallStep) (steps : List CallStep) :
    memory.after (t :: steps) = (t.run memory).1.after steps := rfl

theorem Memory.after_append (memory : Memory k) (steps steps' : List CallStep) :
    memory.after (steps ++ steps') = (memory.after steps).after steps' :=
  List.foldl_append

end LaneGrid
