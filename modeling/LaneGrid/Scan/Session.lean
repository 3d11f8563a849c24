import LaneGrid.Scan.Phases

/-!
# Scan sessions

Scans one after another on the same running blocks and the same storages. A scan that is refused
leaves its block and its storage as they were; one that runs passes two barriers of its block and
replaces what its storage held.

* `Session b s`: `b` running blocks and `s` storages.
* `ScanStep`: one scan, with the block and the storage it uses.
* `Session.step`, `Session.run`: one step, and a list of them.
-/

namespace LaneGrid

variable {α : Type} {b s : Nat}

/-- The blocks and storages that scans share. -/
structure Session (α : Type) (b s : Nat) where
  blocks : Vector Block b
  storages : Vector (Storage α) s

/-- One scan of a session. -/
structure ScanStep (α : Type) (b s : Nat) where
  scan : ScanPlan
  block : Fin b
  storage : Fin s
  method : ScanMethod α
  op : α → α → α
  input : List α
  outputLength : Nat

namespace Session

/-- Fresh storages and the given blocks. -/
def start (blocks : Vector Block b) : Session α b s where
  blocks
  storages := Vector.replicate s {}

def block (session : Session α b s) (j : Fin b) : Block := session.blocks[j]

def storage (session : Session α b s) (j : Fin s) : Storage α := session.storages[j]

/-- Puts back what a scan leaves in its block and its storage. -/
def put (session : Session α b s) (block : Fin b) (storage : Fin s) (shared : Shared α) :
    Session α b s where
  blocks := session.blocks.set block shared.block
  storages := session.storages.set storage shared.storage

/-- Runs one scan on its block and its storage. -/
def step (session : Session α b s) (t : ScanStep α b s) :
    Session α b s × Except ShapeError (Scanned α) :=
  let (result, shared) := (t.scan.scanOn t.method t.op t.input t.outputLength).run.run
    ⟨session.block t.block, session.storage t.storage⟩
  (session.put t.block t.storage shared, result)

/-- The results of the steps, each with the session it leaves. -/
def run (session : Session α b s) :
    List (ScanStep α b s) → List (Session α b s × Except ShapeError (Scanned α))
  | [] => []
  | t :: rest => session.step t :: (session.step t).1.run rest

/-! ## Blocks and storages -/

variable {session : Session α b s} {block : Fin b} {storage : Fin s} {shared : Shared α}

@[simp] theorem block_put : (session.put block storage shared).block block = shared.block :=
  Vector.getElem_set_self block.isLt

@[simp] theorem storage_put : (session.put block storage shared).storage storage = shared.storage :=
  Vector.getElem_set_self storage.isLt

theorem block_put_of_ne {j : Fin b} (h : j ≠ block) :
    (session.put block storage shared).block j = session.block j :=
  Vector.getElem_set_ne block.isLt j.isLt fun heq => h (Fin.ext heq.symm)

theorem storage_put_of_ne {j : Fin s} (h : j ≠ storage) :
    (session.put block storage shared).storage j = session.storage j :=
  Vector.getElem_set_ne storage.isLt j.isLt fun heq => h (Fin.ext heq.symm)

/-- Putting back what was there changes nothing. -/
@[simp] theorem put_self :
    session.put block storage ⟨session.block block, session.storage storage⟩ = session := by
  simp [put, Session.block, Session.storage]

end Session

end LaneGrid
