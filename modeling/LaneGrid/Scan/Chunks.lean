/-!
# Consecutive chunks

`chunks size values` cuts a list into consecutive chunks of `size` values, the last of which may be
shorter: the lanes of a block into its groups, and the items of a block into its lanes. The chunks
hold every value once and in order (`flatten_chunks`), and none is longer than `size`
(`length_le_of_mem_chunks`).
-/

namespace LaneGrid

variable {α : Type} {size : Nat}

/-- Cuts a list into consecutive chunks of `size` values; the last one may be shorter. -/
def chunks (size : Nat) (values : List α) : List (List α) :=
  if 0 < size ∧ values ≠ [] then values.take size :: chunks size (values.drop size) else []
termination_by values.length
decreasing_by
  rename_i h
  have := List.length_pos_iff.2 h.2
  simp only [List.length_drop]
  omega

@[simp] theorem chunks_nil : chunks size ([] : List α) = [] := by
  rw [chunks]
  simp

theorem chunks_of_ne_nil (hs : 0 < size) {values : List α} (hv : values ≠ []) :
    chunks size values = values.take size :: chunks size (values.drop size) := by
  rw [chunks, if_pos ⟨hs, hv⟩]

/-- The chunks read the list. -/
theorem flatten_chunks (hs : 0 < size) (values : List α) :
    (chunks size values).flatten = values := by
  fun_induction chunks size values with
  | case1 values _ ih => rw [List.flatten_cons, ih, List.take_append_drop]
  | case2 values h =>
    have : values = [] := Classical.byContradiction fun hv => h ⟨hs, hv⟩
    rw [this, List.flatten_nil]

theorem length_le_of_mem_chunks {values chunk : List α} (h : chunk ∈ chunks size values) :
    chunk.length ≤ size := by
  fun_induction chunks size values with
  | case1 values _ ih =>
    rcases List.mem_cons.1 h with rfl | h
    · exact List.length_take_le _ _
    · exact ih h
  | case2 => simp at h

end LaneGrid
