import Mathlib.Algebra.Ring.Nat
import LaneGrid.Proofs.Scan.Associative

/-!
# Shapes of scan plans

A block is scanned in groups, and one group more scans what the groups come to. All of them are
lockstep groups, so none may have more lanes than a lockstep group is wide.

* `groups_le_width_iff`: a block has no more groups than the width when its size is at most the
  width squared, on whichever side of the width that is.
* `ScanPlan.map_publishers`: one lane of every group publishes, in the order of the groups.
* `ScanPlan.runVia_eq`: no scan asks a lockstep group for more lanes than the group is wide.

`shape_law`: which blocks have a plan, and what the groups of a plan look like.
-/

namespace LaneGrid

variable {α : Type}

/-! ## Groups of a block -/

theorem isPowerOfTwo_groupSize {width : Nat} (hw : width.isPowerOfTwo) (lanes : Nat) :
    (groupSize width lanes).isPowerOfTwo := by
  unfold groupSize
  rcases Nat.le_total width (ceilPowerOfTwo lanes) with h | h
  · rwa [Nat.min_eq_left h]
  · rw [Nat.min_eq_right h]
    exact isPowerOfTwo_ceilPowerOfTwo lanes

theorem le_groupSize_iff {width lanes : Nat} : lanes ≤ groupSize width lanes ↔ lanes ≤ width := by
  have := (ceilPowerOfTwo_le_iff (isPowerOfTwo_ceilPowerOfTwo lanes)).1 (Nat.le_refl _)
  unfold groupSize
  omega

/-- A block wider than a group is cut into groups of the full width. -/
theorem groupSize_of_lt {width lanes : Nat} (hw : width.isPowerOfTwo) (h : width < lanes) :
    groupSize width lanes = width := by
  have := ceilPowerOfTwo_le_iff (n := lanes) hw
  unfold groupSize
  omega

theorem groups_le_width_iff {width lanes : Nat} (hw : width.isPowerOfTwo) :
    cover lanes (groupSize width lanes) ≤ width ↔ lanes ≤ width ^ 2 := by
  have hpos : 0 < groupSize width lanes :=
    Nat.pos_of_isPowerOfTwo (isPowerOfTwo_groupSize hw lanes)
  have hwidth : 0 < width := Nat.pos_of_isPowerOfTwo hw
  rw [cover_le_iff hpos, Nat.pow_two]
  rcases Nat.lt_or_ge width lanes with h | h
  · rw [groupSize_of_lt hw h]
  · -- a single group, which both sides have room for
    have hgroup : lanes ≤ groupSize width lanes := le_groupSize_iff.2 h
    exact iff_of_true (Nat.le_trans hgroup (Nat.le_mul_of_pos_left _ hwidth))
      (Nat.le_trans h (Nat.le_mul_of_pos_left _ hwidth))

/-- The last lanes of the groups lie in the groups `0`, `1`, …. -/
theorem map_lastLanes {size : Nat} (hs : 0 < size) (count : Nat) :
    (lastLanes size count).map (· / size) = List.range (cover count size) := by
  induction count using Nat.strongRecOn with
  | ind count ih =>
    rcases Nat.eq_zero_or_pos count with rfl | hpos
    · rw [cover, Nat.zero_add, Nat.div_eq_of_lt (by omega)]
      rfl
    rcases Nat.le_total count size with hle | hle
    · rw [lastLanes_of_le hpos hle, cover_succ hs hpos, Nat.sub_eq_zero_of_le hle, cover,
        Nat.zero_add, Nat.div_eq_of_lt (by omega), List.map_singleton, Nat.div_eq_of_lt (by omega)]
      rfl
    · obtain ⟨rest, rfl⟩ := Nat.exists_eq_add_of_le hle
      have hnext : ((· / size) ∘ (size + ·)) = Nat.succ ∘ (· / size) := by
        funext lane
        show (size + lane) / size = lane / size + 1
        rw [Nat.add_comm, Nat.add_div_right _ hs]
      rw [lastLanes_add hs, List.map_cons, List.map_map, hnext, ← List.map_map, ih rest (by omega),
        cover_succ hs hpos, Nat.add_sub_cancel_left, List.range_succ_eq_map,
        Nat.div_eq_of_lt (by omega)]

namespace ScanPlan

variable (s : ScanPlan)

theorem exists_build_iff {blockSize : Nat} {l : Lockstep} :
    (∃ s, build blockSize l = .ok s) ↔ 1 ≤ blockSize ∧ blockSize ≤ l.width ^ 2 := by
  rw [← groups_le_width_iff l.width_pow, ← ceilPowerOfTwo_le_iff l.width_pow]
  unfold build
  split
  · rename_i hpos
    dsimp only
    split
    · rename_i hgroups
      exact iff_of_true ⟨_, rfl⟩ ⟨hpos, hgroups⟩
    · rename_i hgroups
      exact iff_of_false (by simp) fun h => hgroups h.2
  · rename_i hpos
    exact iff_of_false (by simp) fun h => hpos h.1

theorem of_build {blockSize : Nat} {l : Lockstep} {s : ScanPlan} (h : build blockSize l = .ok s) :
    s.lockstep = l ∧ s.blockSize = blockSize := by
  unfold build at h
  split at h
  · dsimp only at h
    split at h
    · cases h
      exact ⟨rfl, rfl⟩
    · cases h
  · cases h

theorem groupSize_le_width : s.groupSize ≤ s.lockstep.width := Nat.min_le_left _ _

theorem groups_le_width : s.groups ≤ s.lockstep.width :=
  (ceilPowerOfTwo_le_iff s.lockstep.width_pow).1 s.groups_le

theorem groups_eq_one_iff : s.groups = 1 ↔ s.blockSize ≤ s.lockstep.width := by
  have hpos : 0 < s.groups := by
    rw [groups, lt_cover_iff s.groupSize_pos, Nat.zero_mul]
    exact s.blockSize_pos
  have hone : s.groups ≤ 1 ↔ s.blockSize ≤ s.lockstep.width := by
    rw [groups, cover_le_iff s.groupSize_pos, Nat.one_mul, groupSize, le_groupSize_iff]
  omega

/-- The last group has a lane, and no lane lies beyond it. -/
theorem blockSize_bounds :
    (s.groups - 1) * s.groupSize < s.blockSize ∧ s.blockSize ≤ s.groups * s.groupSize := by
  have hpos : 0 < s.groups := by
    rw [groups, lt_cover_iff s.groupSize_pos, Nat.zero_mul]
    exact s.blockSize_pos
  rw [← lt_cover_iff s.groupSize_pos, ← cover_le_iff s.groupSize_pos]
  exact ⟨Nat.sub_lt hpos Nat.one_pos, Nat.le_refl _⟩

/-- **Every group publishes once**, in the order of the groups. -/
theorem map_publishers : s.publishers.map (· / s.groupSize) = List.range s.groups :=
  map_lastLanes s.groupSize_pos s.blockSize

end ScanPlan

/-! ## Scans by way of a group's scan -/

/-- A group was to scan more lanes than it has. -/
structure TooManyLanes where
  lanes : Nat
  width : Nat

/-- The scan of a group, refused for more lanes than the group is wide. -/
def Lockstep.scanWithin (l : Lockstep) (op : α → α → α) (lanes : List α) :
    Except TooManyLanes (List α) :=
  if lanes.length ≤ l.width then .ok (l.scan op lanes) else .error ⟨lanes.length, l.width⟩

namespace ScanPlan

variable {m : Type → Type} [Monad m] [LawfulMonad m] {s : ScanPlan} {op : α → α → α}

/-- There is a slot for every group at most, and so no more than a group has lanes. -/
theorem length_published_le (scanned : List (List α)) :
    (s.published scanned).length ≤ s.lockstep.width := by
  have hgroups := congrArg List.length s.map_publishers
  rw [List.length_map, List.length_range] at hgroups
  exact Nat.le_trans (List.length_filterMap_le _ _) (hgroups ▸ s.groups_le_width)

/-- **No scan asks a group for more lanes than it has**: a group's scan that is right up to the
width will do. -/
theorem runVia_eq {scanGroup : List α → m (List α)}
    (h : ∀ lanes : List α, lanes.length ≤ s.lockstep.width →
      scanGroup lanes = pure (s.lockstep.scan op lanes))
    (method : ScanMethod α) (input : List α) :
    s.runVia scanGroup method op input = pure (s.run method op input) := by
  rw [run_eq]
  exact runVia_of_groups (fun lanes hlanes => h lanes (Nat.le_trans hlanes s.groupSize_le_width))
    (fun scanned => h _ (length_published_le scanned)) method input

end ScanPlan

/-! ## Shapes -/

/-- The groups of a plan. -/
structure ScanPlan.Shape (s : ScanPlan) : Prop where
  groupSize_pow : s.groupSize.isPowerOfTwo
  groupSize_le : s.groupSize ≤ s.lockstep.width
  covered : (s.groups - 1) * s.groupSize < s.blockSize ∧ s.blockSize ≤ s.groups * s.groupSize
  one_group_iff : s.groups = 1 ↔ s.blockSize ≤ s.lockstep.width
  groups_le : s.groups ≤ s.lockstep.width
  publish : s.publishers.map (· / s.groupSize) = List.range s.groups
  slices : ∀ {α : Type} (method : ScanMethod α) (op : α → α → α) (input : List α),
    s.runVia (s.lockstep.scanWithin op) method op input = .ok (s.run method op input)

/-- **A block has a plan if one group can scan what its groups come to**: when it has a lane and no
more of them than the width squared. Every group of a plan has the width's lanes or fewer, and so
has all that any scan asks a group for. -/
theorem shape_law (l : Lockstep) (blockSize : Nat) :
    ((∃ s, ScanPlan.build blockSize l = .ok s) ↔ 1 ≤ blockSize ∧ blockSize ≤ l.width ^ 2) ∧
    (∀ s, ScanPlan.build blockSize l = .ok s →
      s.lockstep = l ∧ s.blockSize = blockSize ∧ s.Shape) ∧
    (blockSize ≤ 2 ^ 63 → ceilPowerOfTwo blockSize < 2 ^ 64) := by
  refine ⟨ScanPlan.exists_build_iff, fun s hs => ?_, fun h => ?_⟩
  · obtain ⟨hl, hsize⟩ := ScanPlan.of_build hs
    refine ⟨hl, hsize, ?_⟩
    exact
      { groupSize_pow := isPowerOfTwo_groupSize s.lockstep.width_pow s.blockSize
        groupSize_le := s.groupSize_le_width
        covered := s.blockSize_bounds
        one_group_iff := s.groups_eq_one_iff
        groups_le := s.groups_le_width
        publish := s.map_publishers
        slices := fun method op input => ScanPlan.runVia_eq (fun _ h => if_pos h) method input }
  · -- a power of two itself, which rounding up does not pass
    have := (ceilPowerOfTwo_le_iff ⟨63, rfl⟩).2 h
    omega

/-- Four groups of up to four lanes can be scanned, and five cannot. -/
theorem shape_law_fourLanes :
    (∃ s, ScanPlan.build 15 sevenLanes.lockstep = .ok s ∧ s.Shape ∧ s.groups = 4) ∧
    ¬∃ s, ScanPlan.build 17 sevenLanes.lockstep = .ok s := by
  obtain ⟨s, hs⟩ := (shape_law sevenLanes.lockstep 15).1.2 (by decide)
  obtain ⟨hl, hsize, hshape⟩ := (shape_law sevenLanes.lockstep 15).2.1 s hs
  refine ⟨⟨s, hs, hshape, ?_⟩, fun h => ?_⟩
  · rw [ScanPlan.groups, ScanPlan.groupSize, hl, hsize]
    cbv
  · exact absurd ((shape_law sevenLanes.lockstep 17).1.1 h).2 (by decide)

end LaneGrid
