import LaneGrid.Proofs.Scan.Associative

/-!
# What the slots hold

A scan leaves one slot per group (`length_slots_run`). With an associative operator, a slot holds
the values of all lanes up to the end of its group combined, without any seed
(`getElem?_slots_of_assoc`).
-/

namespace LaneGrid

variable {α ι : Type}

/-! ## The first chunks -/

theorem flatten_take_chunks {size : Nat} (hs : 0 < size) : ∀ (n : Nat) (values : List α),
    ((chunks size values).take n).flatten = values.take (n * size)
  | 0, values => by simp
  | n + 1, values => by
    by_cases hv : values = []
    · rw [hv, chunks_nil, List.take_nil, List.take_nil, List.flatten_nil]
    · rw [chunks_of_ne_nil hs hv, List.take_succ_cons, List.flatten_cons, flatten_take_chunks hs n,
        Nat.succ_mul, Nat.add_comm, List.take_add]

/-- Joining chunks, and then joining the first ones. -/
theorem flatten_take_joined_chunks {size : Nat} (hs : 0 < size) (n : Nat)
    (words : List (List ι)) :
    (((chunks size words).map List.flatten).take n).flatten = (words.take (n * size)).flatten := by
  rw [← List.map_take, ← List.flatten_flatten, flatten_take_chunks hs]

theorem filterMap_chunks_one (op : α → α → α) : ∀ values : List α,
    (chunks 1 values).filterMap (ScanPlan.reduceLane op) = values
  | [] => by rw [chunks_nil]; rfl
  | x :: rest => by
    rw [chunks_of_ne_nil Nat.one_pos (List.cons_ne_nil x rest), List.filterMap_cons]
    show x :: (chunks 1 rest).filterMap _ = x :: rest
    rw [filterMap_chunks_one op rest]

namespace ScanPlan

variable (s : ScanPlan) {op : α → α → α} {m : ScanMethod α} {items : Nat} {input : List α}

/-- A lane with one value has that value for its reduction. -/
theorem reductions_of_flat (h : input.length = s.blockSize) : s.reductions op input = input := by
  rw [reductions, s.laneItems_eq (by rw [h, Nat.mul_one]), filterMap_chunks_one]

/-- Every method leaves the slots of the lanes' reductions. -/
theorem slots_run (h : s.Fits m items input.length) :
    (s.run m op input).slots = s.slots op (s.scanGroups op (s.reductions op input)) := by
  cases hm : m.isBlocked with
  | true => rw [run_of_blocked hm]; rfl
  | false =>
    rw [run_of_flat hm, s.reductions_of_flat (h.length_flat hm)]
    rfl

/-- **A scan leaves one slot per group.** -/
theorem length_slots_run (h : s.Fits m items input.length) :
    (s.run m op input).slots.length = s.groups := by
  rw [s.slots_run h, slots, Lockstep.length_scan, s.length_published]
  rw [length_flatten_scanGroups, s.length_reductions h.items_pos h.length_eq]

/-! ## The values of a slot -/

/-- The values of the lanes up to the end of a group. -/
def valuesThrough (input : List α) (group : Nat) : List α :=
  input.take (min ((group + 1) * s.groupSize) s.blockSize * (input.length / s.blockSize))

theorem valuesThrough_eq (h : input.length = s.blockSize * items) (group : Nat) :
    s.valuesThrough input group = input.take ((group + 1) * s.groupSize * items) := by
  rw [valuesThrough, h, Nat.mul_div_cancel_left _ s.blockSize_pos]
  rcases Nat.le_total ((group + 1) * s.groupSize) s.blockSize with hle | hle
  · rw [Nat.min_eq_left hle]
  · rw [Nat.min_eq_right hle, List.take_of_length_le (by rw [h]),
      List.take_of_length_le (by rw [h]; exact Nat.mul_le_mul_right _ hle)]

theorem getElem?_slots_words {m : ScanMethod (List ι)} {words : List (List ι)}
    (h : s.Fits m items words.length) {group : Nat} (hgroup : group < s.groups) :
    (s.run m (· ++ ·) words).slots[group]? = some (s.valuesThrough words group).flatten := by
  have hlen : (s.reductions (· ++ ·) words).length = s.blockSize :=
    s.length_reductions h.items_pos h.length_eq
  have hgroups : group <
      ((chunks s.groupSize (s.reductions (· ++ ·) words)).map List.flatten).length := by
    rwa [List.length_map, length_chunks s.groupSize_pos, hlen]
  rw [s.slots_run h, s.slots_words hlen, Sequential.getElem?_runningFrom _ _ hgroups,
    List.nil_append, joined_zero, flatten_take_joined_chunks s.groupSize_pos,
    s.reductions_words h.length_eq, flatten_take_joined_chunks h.items_pos,
    s.valuesThrough_eq h.length_eq]

/-- **A slot holds the lanes up to the end of its group**, for every associative operator. -/
theorem getElem?_slots_of_assoc (hassoc : ∀ a b c, op (op a b) c = op a (op b c))
    (h : s.Fits m items input.length) {group : Nat} (hgroup : group < s.groups) :
    (s.run m op input).slots[group]? = Sequential.total? op (s.valuesThrough input group) := by
  have hletters : (s.valuesThrough (input.map fun x => [x]) group).flatten =
      s.valuesThrough input group := by
    rw [valuesThrough, List.length_map, ← List.map_take]
    exact List.flatMap_singleton' _
  -- compared inside `Option`, where the empty word has a value too
  have hrun := congrArg (·.slots[group]?) (run_of_assoc hassoc s m input)
  simp only [Scanned.map, List.getElem?_map, s.getElem?_slots_words h.letters hgroup, hletters,
    Option.map_some] at hrun
  obtain ⟨x, hx, hreduce⟩ := Option.map_eq_some_iff.1 hrun
  rw [hx, hreduce, total?_eq]

end ScanPlan

end LaneGrid
