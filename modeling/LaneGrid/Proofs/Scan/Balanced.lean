import Mathlib
import LaneGrid.Proofs.Scan.Associative
import LaneGrid.Proofs.Scan.Order

/-!
# The scan by shuffling is balanced

Doubling offsets combine the lanes of a group in trees of the least height that a tree of two
branches can have (`balanced_scan`), whether or not the operator is associative and the number of
lanes a power of two.

* `shufflePass_eq`: a pass in place is a simultaneous update.
* `window`: what a lane holds after some passes. The passes up to offset `d` combine a lane with the
  `d - 1` lanes below it, or with all of them (`leaves_window`).
* `lanes_shufflePasses`: the scan of leaves leaves the windows that reach down to the first lane.
-/

namespace LaneGrid

variable {α : Type}

/-- The most combinations between an operand and the whole. -/
def Combination.height : Combination → Nat
  | leaf _ => 0
  | node left right => max left.height right.height + 1

namespace Lockstep

/-! ## One pass -/

/-- **A pass in place is a simultaneous update**: no lane reads what another one wrote. -/
theorem shufflePass_eq (op : α → α → α) {offset : Nat} (hoffset : 0 < offset) (lanes : Array α) :
    shufflePass op offset lanes = Array.ofFn fun i : Fin lanes.size =>
      if offset ≤ i then op lanes[i.val - offset] lanes[i] else lanes[i] := by
  refine Array.ext_getElem? fun i => ?_
  rw [getElem?_shufflePass op hoffset, Array.getElem?_ofFn]
  by_cases hi : i < lanes.size
  · rw [dif_pos hi, Array.getElem?_eq_getElem hi,
      Array.getElem?_eq_getElem (Nat.lt_of_le_of_lt (Nat.sub_le i offset) hi)]
    by_cases hle : offset ≤ i
    · rw [if_pos hle]
      simp [hle]
    · rw [if_neg hle]
      simp [hle]
  · rw [dif_neg hi, Array.getElem?_eq_none (Nat.le_of_not_lt hi)]
    split
    · cases lanes[i - offset]? <;> rfl
    · rfl

/-! ## Windows -/

/-- What a lane holds after the passes at the first offsets: each combines it with the lane its
offset below, if there is one. -/
def window : Nat → Nat → Combination
  | 0, lane => .leaf (.item lane)
  | pass + 1, lane =>
    if 2 ^ pass ≤ lane then .node (window pass (lane - 2 ^ pass)) (window pass lane)
    else window pass lane

theorem window_succ_of_lt {pass lane : Nat} (h : lane < 2 ^ pass) :
    window (pass + 1) lane = window pass lane := if_neg (Nat.not_le.2 h)

/-- A window that reaches down to the first lane stays as it is. -/
theorem window_of_le {pass pass' lane : Nat} (h : lane < 2 ^ pass) (hle : pass ≤ pass') :
    window pass' lane = window pass lane := by
  induction pass', hle using Nat.le_induction with
  | base => rfl
  | succ pass' hle ih =>
    have hpow : 2 ^ pass ≤ 2 ^ pass' := Nat.pow_le_pow_right Nat.two_pos hle
    rw [window_succ_of_lt (Nat.lt_of_lt_of_le h hpow), ih]

/-- A window holds the lanes up to its own, as many as its offset reaches. -/
theorem leaves_window (pass lane : Nat) : (window pass lane).leaves =
    (List.range' (lane + 1 - 2 ^ pass) (min (lane + 1) (2 ^ pass))).map .item := by
  induction pass generalizing lane with
  | zero => simp [window, Combination.leaves]
  | succ pass ih =>
    have hpow : 2 ^ (pass + 1) = 2 ^ pass + 2 ^ pass := Nat.two_pow_succ pass
    rw [window]
    by_cases hle : 2 ^ pass ≤ lane
    · -- the lower window ends where the upper one begins
      rw [if_pos hle]
      have hstart : lane - 2 ^ pass + 1 - 2 ^ pass = lane + 1 - 2 ^ (pass + 1) := by omega
      have hmiddle : lane + 1 - 2 ^ pass =
          lane + 1 - 2 ^ (pass + 1) + min (lane - 2 ^ pass + 1) (2 ^ pass) := by omega
      have hcount : min (lane - 2 ^ pass + 1) (2 ^ pass) + min (lane + 1) (2 ^ pass) =
          min (lane + 1) (2 ^ (pass + 1)) := by omega
      rw [Combination.leaves, ih, ih, ← List.map_append, hstart, hmiddle, List.range'_append_1,
        hcount]
    · rw [if_neg hle, ih]
      congr 2 <;> omega

theorem height_window (pass lane : Nat) :
    (window pass lane).height = min pass (Nat.clog 2 (lane + 1)) := by
  induction pass generalizing lane with
  | zero => simp [window, Combination.height]
  | succ pass ih =>
    have hreach : pass < Nat.clog 2 (lane + 1) ↔ 2 ^ pass ≤ lane := by
      rw [Nat.lt_clog_iff_pow_lt Nat.one_lt_two, Nat.lt_succ_iff]
    rw [window]
    by_cases hle : 2 ^ pass ≤ lane
    · -- the upper window is full, and so the lower one is not higher
      rw [if_pos hle, Combination.height, ih, ih]
      omega
    · rw [if_neg hle, ih]
      omega

/-- What a lane holds in the end. -/
def balanced (lane : Nat) : Combination := window (Nat.clog 2 (lane + 1)) lane

theorem window_eq_balanced {pass lane : Nat} (h : lane < 2 ^ pass) :
    window pass lane = balanced lane := by
  have hpass : Nat.clog 2 (lane + 1) ≤ pass := Nat.clog_le_of_le_pow h
  exact window_of_le (Nat.le_pow_clog Nat.one_lt_two (lane + 1)) hpass

theorem leaves_balanced (lane : Nat) :
    (balanced lane).leaves = (List.range (lane + 1)).map .item := by
  have hreach : lane + 1 ≤ 2 ^ Nat.clog 2 (lane + 1) := Nat.le_pow_clog Nat.one_lt_two _
  rw [balanced, leaves_window, Nat.sub_eq_zero_of_le hreach, Nat.min_eq_left hreach,
    ← List.range_eq_range']

theorem height_balanced (lane : Nat) : (balanced lane).height = Nat.clog 2 (lane + 1) := by
  rw [balanced, height_window, Nat.min_self]

/-! ## The scan of leaves -/

/-- Every lane holds its window. -/
def Windows (count pass : Nat) (lanes : Array Combination) : Prop :=
  ∀ i < count, lanes[i]? = some (window pass i)

theorem windows_leafInput (count : Nat) : Windows count 0 (leafInput count).toArray := by
  intro i hi
  simp [leafInput, hi, window]

variable {count pass : Nat} {lanes : Array Combination}

theorem windows_shufflePass (h : Windows count pass lanes) :
    Windows count (pass + 1) (shufflePass .node (2 ^ pass) lanes) := by
  intro i hi
  rw [getElem?_shufflePass _ (Nat.two_pow_pos pass), window]
  by_cases hle : 2 ^ pass ≤ i
  · rw [if_pos hle, if_pos hle, h i hi, h _ (Nat.lt_of_le_of_lt (Nat.sub_le i _) hi)]
    rfl
  · rw [if_neg hle, if_neg hle, h i hi]

theorem lanes_shufflePasses {offset : Nat} (hoffset : offset = 2 ^ pass)
    (h : Windows count pass lanes) {i : Nat} (hi : i < count) :
    (shufflePasses .node count offset lanes)[i]? = some (balanced i) := by
  fun_induction shufflePasses .node count offset lanes generalizing pass with
  | case1 offset lanes hlt ih =>
    subst hoffset
    refine ih ?_ (windows_shufflePass h)
    rw [Nat.pow_succ, Nat.mul_comm]
  | case2 offset lanes hlt =>
    -- the offset is past the last lane, so that all windows reach down to the first one
    have hpos : 0 < 2 ^ pass := Nat.two_pow_pos pass
    rw [h i hi, window_eq_balanced (by omega)]

/-! ## Scans -/

/-- Each lane of a scan is the value of its tree. -/
theorem eval_balanced {l : Lockstep} (hkind : l.kind = .shuffle) (op : α → α → α) (lanes : List α)
    {lane : Nat} (hlane : lane < lanes.length) :
    ∃ y, (l.scan op lanes)[lane]? = some y ∧
      (balanced lane).eval op (ScanMethod.inclusive.operand lanes) = some y := by
  have htrees : (l.scan .node (leafInput lanes.length))[lane]? = some (balanced lane) := by
    have hsize : (leafInput lanes.length).toArray.size = lanes.length := by simp [leafInput]
    unfold scan scanLanes
    rw [hkind, Array.getElem?_toList, hsize]
    exact lanes_shufflePasses rfl (windows_leafInput _) hlane
  -- the scan of the leaves, evaluated, is the scan of the lanes
  have hscan : (l.scan .node (leafInput lanes.length)).map
      (Combination.eval op (ScanMethod.inclusive.operand lanes)) = (l.scan op lanes).map some := by
    rw [scan_map (Combination.eval_node op _), map_eval_leafInput, scan_map (some_eq_liftOp op)]
  have heval := congrArg (fun r => r[lane]?) hscan
  rw [List.getElem?_map, htrees, List.getElem?_map, Option.map_some] at heval
  obtain ⟨y, hy, hvalue⟩ := Option.map_eq_some_iff.1 heval.symm
  exact ⟨y, hy, hvalue.symm⟩

/-- **The scan by shuffling is balanced and in order**: every lane has one tree of the least height,
for all operators and all numbers of lanes; every pass is a simultaneous update; and with an
associative operator all kinds of scan leave the same. -/
theorem balanced_scan :
    (∀ lane, ∃ tree : Combination, tree.leaves = (List.range (lane + 1)).map .item ∧
      tree.height = Nat.clog 2 (lane + 1) ∧
      ∀ {α : Type} (op : α → α → α) (l : Lockstep) (lanes : List α), l.kind = .shuffle →
        lane < lanes.length → ∃ y, (l.scan op lanes)[lane]? = some y ∧
          tree.eval op (ScanMethod.inclusive.operand lanes) = some y) ∧
    (∀ {α : Type} (op : α → α → α) (offset : Nat) (lanes : Array α), 0 < offset →
      shufflePass op offset lanes = Array.ofFn fun i : Fin lanes.size =>
        if offset ≤ i then op lanes[i.val - offset] lanes[i] else lanes[i]) ∧
    ∀ {α : Type} (op : α → α → α), (∀ a b c, op (op a b) c = op a (op b c)) →
      ∀ (l l' : Lockstep) (lanes : List α), l.scan op lanes = l'.scan op lanes := by
  refine ⟨fun lane => ⟨balanced lane, leaves_balanced lane, height_balanced lane, ?_⟩, ?_, ?_⟩
  · intro α op l lanes hkind hlane
    exact eval_balanced hkind op lanes hlane
  · intro α op offset lanes hoffset
    exact shufflePass_eq op hoffset lanes
  · intro α op hassoc l l' lanes
    rw [scan_eq_inclusive hassoc l, scan_eq_inclusive hassoc l']

/-- Groups of up to sixteen lanes. -/
def sixteenLanes (kind : LockstepKind) : Lockstep := ⟨kind, 16, 4, rfl⟩

def fiveLanes : List Int := [9, 5, 3, 2, 1]

theorem balanced_scan_fiveLanes :
    (∃ tree : Combination, tree.leaves = [.item 0, .item 1, .item 2, .item 3, .item 4] ∧
      tree.height = 3 ∧ ∃ y, ((sixteenLanes .shuffle).scan (· - ·) fiveLanes)[4]? = some y ∧
        tree.eval (· - ·) (ScanMethod.inclusive.operand fiveLanes) = some y) ∧
    shufflePass (· - ·) 2 fiveLanes.toArray = #[9, 5, 6, 3, 2] ∧
    (sixteenLanes .shuffle).scan (· ++ ·) [[0], [1, 1], [], [3], [4]] =
      (sixteenLanes .serial).scan (· ++ ·) [[0], [1, 1], [], [3], [4]] := by
  refine ⟨?_, ?_, ?_⟩
  · obtain ⟨tree, hleaves, hheight, heval⟩ := balanced_scan.1 4
    exact ⟨tree, hleaves, hheight.trans (by decide),
      heval (· - ·) (sixteenLanes .shuffle) fiveLanes rfl (by decide)⟩
  · rw [balanced_scan.2.1 (· - ·) 2 fiveLanes.toArray Nat.two_pos]
    rfl
  · exact balanced_scan.2.2 (· ++ ·) List.append_assoc (sixteenLanes .shuffle)
      (sixteenLanes .serial) _

end Lockstep

end LaneGrid
