import LaneGrid.Proofs.Scan.Groups
import LaneGrid.Proofs.Scan.Transport

/-!
# Block scans of words

What each method leaves when lists are joined: the same as one walk along all values
(`output_words`), and all of them in the total (`total_words`).

* Walks that are cut into pieces go on where they stopped (`Sequential.zipWith_flatten`).
* `Fits`: the lengths that a method accepts.
-/

namespace LaneGrid

variable {α ι : Type}

/-! ## Piecewise walks -/

namespace Sequential

/-- A walk along words that goes on where it stopped, piece by piece. -/
theorem zipWith_flatten {f : List ι → List (List ι) → List (List ι)} (hnil : ∀ w, f w [] = [])
    (happend : ∀ w l l', f w (l ++ l') = f w l ++ f (w ++ l.flatten) l') :
    ∀ (w : List ι) (pieces : List (List (List ι))),
      (List.zipWith f (exclusive (· ++ ·) w (pieces.map List.flatten)) pieces).flatten =
        f w pieces.flatten
  | w, [] => by rw [List.flatten_nil, hnil]; rfl
  | w, piece :: pieces => by
    rw [List.map_cons, exclusive, List.zipWith_cons_cons, List.flatten_cons, List.flatten_cons,
      happend, zipWith_flatten hnil happend]

theorem zipWith_runningFrom (w : List ι) (pieces : List (List (List ι))) :
    (List.zipWith (runningFrom (· ++ ·)) (exclusive (· ++ ·) w (pieces.map List.flatten))
      pieces).flatten = runningFrom (· ++ ·) w pieces.flatten :=
  zipWith_flatten (fun _ => rfl) runningFrom_append w pieces

theorem zipWith_exclusive (w : List ι) (pieces : List (List (List ι))) :
    (List.zipWith (exclusive (· ++ ·)) (exclusive (· ++ ·) w (pieces.map List.flatten))
      pieces).flatten = exclusive (· ++ ·) w pieces.flatten :=
  zipWith_flatten (fun _ => rfl) exclusive_append w pieces

/-- What stands before the pieces, with what all of them come to at the end, which nobody reads. -/
theorem zipWith_cons_runningFrom {γ : Type} (f : List ι → List (List ι) → γ) :
    ∀ (w : List ι) (pieces : List (List (List ι))),
      List.zipWith f (w :: runningFrom (· ++ ·) w (pieces.map List.flatten)) pieces =
        List.zipWith f (exclusive (· ++ ·) w (pieces.map List.flatten)) pieces
  | w, [] => by simp
  | w, piece :: pieces => by
    rw [List.map_cons, runningFrom, exclusive, List.zipWith_cons_cons, List.zipWith_cons_cons,
      zipWith_cons_runningFrom f]

theorem dropLast_cons_runningFrom : ∀ (w : List ι) (words : List (List ι)),
    (w :: runningFrom (· ++ ·) w words).dropLast = exclusive (· ++ ·) w words
  | w, [] => rfl
  | w, x :: rest => by
    rw [runningFrom, List.dropLast_cons_cons, dropLast_cons_runningFrom (w ++ x), exclusive]

/-- Handing the running values one lane up. -/
theorem shiftUp_some_runningFrom (w : List ι) (words : List (List ι)) :
    shiftUp (some w) (runningFrom (· ++ ·) w words) = exclusive (· ++ ·) w words := by
  cases words with
  | nil => rfl
  | cons x rest =>
    rw [runningFrom, shiftUp, dropLast_cons_runningFrom, exclusive]
    rfl

theorem shiftUp_none_runningFrom (x : List ι) (rest : List (List ι)) :
    shiftUp none (runningFrom (· ++ ·) [] (x :: rest)) = x :: exclusive (· ++ ·) x rest := by
  rw [runningFrom, shiftUp, dropLast_cons_runningFrom]
  rfl

end Sequential

theorem Sequential.scanl_eq (op : α → α → α) : ∀ (before : α) (items : List α),
    items.scanl op before = before :: runningFrom op before items
  | _, [] => rfl
  | before, x :: rest => by
    rw [List.scanl_cons, scanl_eq op (op before x) rest, runningFrom]

namespace ScanPlan

open LaneGrid.Sequential (runningFrom)

variable (s : ScanPlan)

/-! ## One value per lane -/

/-- Nothing before the first group is as good as no words before it. -/
theorem zipWith_prefixes {γ : Type} (f : List ι → List (List ι) → γ) (slots : List (List ι))
    (groups : List (List (List ι))) :
    List.zipWith (fun before group => f (before.getD []) group) (prefixes slots) groups =
      List.zipWith f ([] :: slots) groups := by
  have hprefixes : (prefixes slots).map (·.getD []) = [] :: slots := by
    rw [prefixes, List.map_cons, List.map_map]
    exact congrArg _ (List.map_id slots)
  rw [← hprefixes, List.zipWith_map_left]

theorem withPrefix_words (before : Option (List ι)) (group : List (List ι)) :
    withPrefix (· ++ ·) before (runningFrom (· ++ ·) [] group) =
      runningFrom (· ++ ·) (before.getD []) group := by
  cases before with
  | none => rfl
  | some before =>
    rw [withPrefix, Sequential.map_runningFrom, List.append_nil]
    rfl

/-- The first group keeps its first lane, and every later group starts with what stands before it.
-/
theorem zipWith_shiftUp {groups : List (List (List ι))} (hne : ∀ group ∈ groups, group ≠ []) :
    (List.zipWith (fun before group => shiftUp before (runningFrom (· ++ ·) (before.getD []) group))
      (prefixes (runningFrom (· ++ ·) [] (groups.map List.flatten))) groups).flatten =
        shiftUp none (runningFrom (· ++ ·) [] groups.flatten) := by
  cases groups with
  | nil => rfl
  | cons group groups =>
    obtain ⟨x, rest, rfl⟩ := List.exists_cons_of_ne_nil (hne group List.mem_cons_self)
    rw [prefixes, List.zipWith_cons_cons, List.flatten_cons, Option.getD_none,
      Sequential.shiftUp_none_runningFrom, List.zipWith_map_left]
    simp only [Option.getD_some, Sequential.shiftUp_some_runningFrom]
    rw [List.map_cons, runningFrom, Sequential.zipWith_cons_runningFrom,
      Sequential.zipWith_exclusive, List.flatten_cons, List.cons_append, List.flatten_cons,
      List.cons_append, Sequential.shiftUp_none_runningFrom, Sequential.exclusive_append,
      List.nil_append]

/-- A seeded scan goes on from the seed, combined with the slots for the groups above the first. -/
theorem zipWith_exclusive_finish (op : α → α → α) (init : α) (slots : List α)
    (groups : List (List α)) :
    List.zipWith ((ScanMethod.exclusive init).finish op) (prefixes slots) groups =
      List.zipWith (fun before lanes => shiftUp (some before) (withPrefix op (some before) lanes))
        (init :: slots.map (op init)) groups := by
  have hprefixes : (prefixes slots).map (·.elim init (op init)) = init :: slots.map (op init) := by
    rw [prefixes, List.map_cons, List.map_map]
    rfl
  rw [← hprefixes, List.zipWith_map_left]
  rfl

section
variable {words : List (List ι)} (h : words.length = s.blockSize)
include h

theorem inclusive_words :
    (s.lanes (· ++ ·) (ScanMethod.inclusive.finish (· ++ ·)) words).output =
      Sequential.inclusive (· ++ ·) words := by
  unfold lanes finishGroups ScanMethod.finish
  dsimp only
  rw [s.slots_words h, scanGroups_words, List.zipWith_map_right]
  simp only [withPrefix_words]
  rw [zipWith_prefixes, Sequential.zipWith_cons_runningFrom, Sequential.zipWith_runningFrom,
    flatten_chunks s.groupSize_pos, Sequential.inclusive_words]

theorem exclusive_words (init : List ι) :
    (s.lanes (· ++ ·) ((ScanMethod.exclusive init).finish (· ++ ·)) words).output =
      Sequential.exclusive (· ++ ·) init words := by
  unfold lanes finishGroups
  dsimp only
  rw [zipWith_exclusive_finish, s.slots_words h, scanGroups_words, List.zipWith_map_right,
    Sequential.map_runningFrom, List.append_nil]
  simp only [withPrefix_words, Option.getD_some, Sequential.shiftUp_some_runningFrom]
  rw [Sequential.zipWith_cons_runningFrom, Sequential.zipWith_exclusive,
    flatten_chunks s.groupSize_pos]

theorem unseeded_words :
    (s.lanes (· ++ ·) (ScanMethod.unseeded.finish (· ++ ·)) words).output =
      shiftUp none (Sequential.inclusive (· ++ ·) words) := by
  unfold lanes finishGroups ScanMethod.finish
  dsimp only
  rw [s.slots_words h, scanGroups_words, List.zipWith_map_right]
  simp only [withPrefix_words]
  rw [zipWith_shiftUp fun group => ne_nil_of_mem_chunks, flatten_chunks s.groupSize_pos,
    Sequential.inclusive_words]

end

/-! ## Several values per lane -/

theorem foldl_words : ∀ (w : List ι) (words : List (List ι)),
    words.foldl (· ++ ·) w = w ++ words.flatten
  | w, [] => by simp
  | w, x :: rest => by
    rw [List.foldl_cons, foldl_words, List.flatten_cons, List.append_assoc]

theorem reduceLane_words {items : List (List ι)} (h : items ≠ []) :
    reduceLane (· ++ ·) items = some items.flatten := by
  obtain ⟨x, rest, rfl⟩ := List.exists_cons_of_ne_nil h
  rw [reduceLane, foldl_words, List.flatten_cons]

theorem expandInclusive_words (before : Option (List ι)) (items : List (List ι)) :
    expandInclusive (· ++ ·) before items = runningFrom (· ++ ·) (before.getD []) items := by
  cases before with
  | some before =>
    rw [expandInclusive, Sequential.scanl_eq]
    rfl
  | none =>
    cases items with
    | nil => rfl
    | cons x rest =>
      rw [expandInclusive, Sequential.scanl_eq]
      rfl

theorem expandExclusive_words (before : List ι) (items : List (List ι)) :
    expandExclusive (· ++ ·) before items = Sequential.exclusive (· ++ ·) before items := by
  rw [expandExclusive, Sequential.scanl_eq, Sequential.dropLast_cons_runningFrom]

/-- Nothing stands before lane 0, whatever the unseeded scan of the reductions leaves there. -/
theorem inclusiveItems_words (items : List (List (List ι))) :
    inclusiveItems (· ++ ·) items
        (shiftUp none (Sequential.inclusive (· ++ ·) (items.map List.flatten))) =
      Sequential.inclusive (· ++ ·) items.flatten := by
  rw [inclusiveItems, funext₂ expandInclusive_words, zipWith_prefixes,
    Sequential.inclusive_words, Sequential.inclusive_words]
  cases items with
  | nil => rfl
  | cons item items =>
    rw [List.map_cons, Sequential.shiftUp_none_runningFrom, List.tail_cons,
      ← Sequential.zipWith_runningFrom]
    rfl

section
variable {items : Nat} {words : List (List ι)} (h : words.length = s.blockSize * items)
include h

theorem reductions_words :
    s.reductions (· ++ ·) words = (chunks items words).map List.flatten := by
  rw [reductions, laneItems_eq s h, ← List.filterMap_eq_map]
  exact List.filterMap_congr fun item hitem => reduceLane_words (ne_nil_of_mem_chunks hitem)

variable (hitems : 0 < items)
include hitems

theorem inclusiveBlocked_words :
    (s.run .inclusiveBlocked (· ++ ·) words).output = Sequential.inclusive (· ++ ·) words := by
  rw [run_of_blocked rfl]
  show inclusiveItems _ _ (s.lanes _ (ScanMethod.unseeded.finish _) _).output = _
  rw [s.unseeded_words (s.length_reductions hitems h), reductions_words s h, laneItems_eq s h,
    inclusiveItems_words, flatten_chunks hitems]

theorem exclusiveBlocked_words (init : List ι) :
    (s.run (.exclusiveBlocked init) (· ++ ·) words).output =
      Sequential.exclusive (· ++ ·) init words := by
  rw [run_of_blocked rfl]
  show (List.zipWith _ (s.lanes _ ((ScanMethod.exclusive init).finish _) _).output _).flatten = _
  rw [s.exclusive_words (s.length_reductions hitems h), reductions_words s h, laneItems_eq s h,
    funext₂ expandExclusive_words, Sequential.zipWith_exclusive, flatten_chunks hitems]

end

/-! ## Every method -/

/-- The last slot holds all words. -/
theorem getLast?_slots {words : List (List ι)} (h : words.length = s.blockSize) :
    (s.slots (· ++ ·) (s.scanGroups (· ++ ·) words)).getLast? = some words.flatten := by
  have hne : (chunks s.groupSize words).map List.flatten ≠ [] := by
    have hwords : words ≠ [] := List.length_pos_iff.1 (h ▸ s.blockSize_pos)
    rw [chunks_of_ne_nil s.groupSize_pos hwords]
    exact List.cons_ne_nil _ _
  rw [s.slots_words h, Sequential.getLast?_runningFrom hne, List.nil_append, ← List.flatten_flatten,
    flatten_chunks s.groupSize_pos]

/-- `length` values are `items` for every lane, one of them if the method takes no more. -/
structure Fits (s : ScanPlan) (m : ScanMethod α) (items length : Nat) : Prop where
  items_pos : 0 < items
  flat : m.isBlocked = false → items = 1
  length_eq : length = s.blockSize * items

namespace Fits

variable {s : ScanPlan} {m : ScanMethod α} {items length : Nat}

theorem length_flat (h : s.Fits m items length) (hm : m.isBlocked = false) :
    length = s.blockSize := by
  rw [h.length_eq, h.flat hm, Nat.mul_one]

theorem map {β : Type} {f : α → β} (h : s.Fits m items length) : s.Fits (m.map f) items length :=
  { h with flat := fun hm => h.flat (by rwa [ScanMethod.isBlocked_map] at hm) }

end Fits

section
variable {items : Nat} {words : List (List ι)} {m : ScanMethod (List ι)}
  (h : s.Fits m items words.length)
include h

/-- **Every method leaves what one walk along the words leaves.** -/
theorem output_words : (s.run m (· ++ ·) words).output = m.sequential (· ++ ·) words := by
  cases m with
  | inclusive =>
    rw [run_of_flat rfl]
    exact s.inclusive_words (h.length_flat rfl)
  | exclusive init =>
    rw [run_of_flat rfl]
    exact s.exclusive_words (h.length_flat rfl) init
  | unseeded =>
    rw [run_of_flat rfl]
    exact s.unseeded_words (h.length_flat rfl)
  | inclusiveBlocked => exact s.inclusiveBlocked_words h.length_eq h.items_pos
  | exclusiveBlocked init => exact s.exclusiveBlocked_words h.length_eq h.items_pos init

/-- **The total is all words**, without a seed. -/
theorem total_words : (s.run m (· ++ ·) words).total = some words.flatten := by
  rw [Scanned.total, run_eq]
  cases hm : m.isBlocked with
  | false => exact s.getLast?_slots (h.length_flat hm)
  | true =>
    refine (s.getLast?_slots (s.length_reductions h.items_pos h.length_eq)).trans ?_
    rw [reductions_words s h.length_eq, ← List.flatten_flatten, flatten_chunks h.items_pos]

end

end ScanPlan

end LaneGrid
