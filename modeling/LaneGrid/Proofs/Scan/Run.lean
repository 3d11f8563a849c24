import LaneGrid.Scan.Run
import LaneGrid.Proofs.Checks

/-!
# What a scan comes to

A scan whose group scans neither fail nor do anything else is a function of its input: the groups'
lanes and the slots (`scanGroups`, `slots`), put together by how its method ends (`lanes`). `run_eq`
says so for a plan's own groups, and `runVia_of_groups` for any others that do the same.
-/

namespace LaneGrid

variable {α : Type} {m : Type → Type} [Monad m]

namespace ScanPlan

variable (s : ScanPlan)

/-! ## Phases -/

/-- The lanes of every group, scanned. -/
def scanGroups (op : α → α → α) (input : List α) : List (List α) :=
  (chunks s.groupSize input).map (s.lockstep.scan op)

/-- Slot `g` holds the groups `0` to `g` combined. -/
def slots (op : α → α → α) (scanned : List (List α)) : List α :=
  s.lockstep.scan op (s.published scanned)

/-- One value per lane, scanned. -/
def lanes (op : α → α → α) (finish : Option α → List α → List α) (input : List α) : Scanned α :=
  finishGroups finish (s.scanGroups op input) (s.slots op (s.scanGroups op input))

/-! ## Scans -/

variable [LawfulMonad m] {s} {op : α → α → α}

/-- Phase 1, if the groups' scans do nothing else. -/
theorem scanLanes_of_groups {phases : ScanPhases m α}
    (hgroup : ∀ lanes, lanes.length ≤ s.groupSize →
      phases.scanGroup lanes = pure (s.lockstep.scan op lanes))
    (finish : Option α → List α → List α) (input : List α) (outputLength : Nat) :
    s.scanLanes phases finish input outputLength = do
      phases.checkFlat input.length outputLength
      let slots ← phases.scanSlots (s.scanGroups op input)
      return finishGroups finish (s.scanGroups op input) slots := by
  have hgroups : (chunks s.groupSize input).mapM phases.scanGroup = pure (s.scanGroups op input) :=
    mapM_of_pure fun group hmem => hgroup group (length_le_of_mem_chunks hmem)
  rw [scanLanes, hgroups]
  simp only [pure_bind]

/-- **A scan by way of groups that only scan** only scans. -/
theorem runVia_of_groups {scanGroup : List α → m (List α)}
    (hgroup : ∀ lanes, lanes.length ≤ s.groupSize →
      scanGroup lanes = pure (s.lockstep.scan op lanes))
    (hslots : ∀ scanned, scanGroup (s.published scanned) = pure (s.slots op scanned))
    (method : ScanMethod α) (input : List α) :
    s.runVia scanGroup method op input = pure
      (if method.isBlocked then
        s.expandLanes method op input (s.lanes op (method.finish op) (s.reductions op input))
      else s.lanes op (method.finish op) input) := by
  have hlanes (input : List α) (outputLength : Nat) :
      s.scanLanes (s.phasesVia scanGroup) (method.finish op) input outputLength =
        pure (s.lanes op (method.finish op) input) := by
    rw [scanLanes_of_groups hgroup]
    simp only [phasesVia, hslots, pure_bind]
    rfl
  have hcheck : (s.phasesVia scanGroup).checkItems input.length input.length = pure () := rfl
  unfold runVia scanWith
  cases method.isBlocked with
  | true => simp only [if_true, hcheck, hlanes, pure_bind]
  | false => exact hlanes input input.length

theorem run_eq (method : ScanMethod α) (input : List α) :
    s.run method op input =
      if method.isBlocked then
        s.expandLanes method op input (s.lanes op (method.finish op) (s.reductions op input))
      else s.lanes op (method.finish op) input :=
  congrArg Id.run (runVia_of_groups (fun _ _ => rfl) (fun _ => rfl) method input)

theorem run_of_flat {method : ScanMethod α} (h : method.isBlocked = false) (input : List α) :
    s.run method op input = s.lanes op (method.finish op) input := by
  rw [run_eq, h, if_neg Bool.false_ne_true]

theorem run_of_blocked {method : ScanMethod α} (h : method.isBlocked = true) (input : List α) :
    s.run method op input =
      s.expandLanes method op input (s.lanes op (method.finish op) (s.reductions op input)) := by
  rw [run_eq, if_pos h]

end ScanPlan

end LaneGrid
