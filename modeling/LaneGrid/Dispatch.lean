/-!
# Dispatch

Whether the blocks of a grid may run at the same time, and on how many workers.

* `Dispatch.ofWorkers`: one worker means one block after another. Zero workers stands for the
  workers that are already there, `ambient` of them.
* `WorkerPlan.ofWorkers`: the mode, and the size of the pool that is made for it, if one is.
-/

namespace LaneGrid

/-- How the blocks of a grid are run. -/
inductive Dispatch where
  /-- One after another. -/
  | sequential
  /-- As independent tasks. -/
  | parallel
deriving DecidableEq

namespace Dispatch

def ofWorkers (workers ambient : Nat) : Dispatch :=
  if workers = 1 ∨ (workers = 0 ∧ ambient = 1) then .sequential else .parallel

def isParallel : Dispatch → Bool
  | .sequential => false
  | .parallel => true

end Dispatch

/-- A mode and the pool it needs. -/
structure WorkerPlan where
  mode : Dispatch
  /-- The number of workers of the pool made for this run; `none` if the run makes none. -/
  pool : Option Nat
deriving DecidableEq

/-- A pool is made for two or more workers only. -/
def WorkerPlan.ofWorkers (workers ambient : Nat) : WorkerPlan where
  mode := .ofWorkers workers ambient
  pool := if workers ≤ 1 then none else some workers

end LaneGrid
