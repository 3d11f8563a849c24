import Mathlib.Data.List.Basic
import LaneGrid.Scan.Sequential
import LaneGrid.Proofs.Cover
import LaneGrid.Proofs.Scan.Lanes
import LaneGrid.Proofs.Scan.Run

/-!
# Groups and slots

What the first three phases of a block scan leave, on words: every group holds its own words from
its first lane on (`scanGroups_words`), and every slot the words of all groups up to its own
(`slots_words`).

* Sequential scans of words split where the words do (`runningFrom_append`, `exclusive_append`).
* The lanes that publish are the last ones of the groups (`published_eq`).
* With several values per lane, every lane has a reduction (`length_reductions`).
-/

namespace LaneGrid

variable {α ι : Type}

/-! ## Sequential scans of words -/

namespace Sequential

theorem inclusive_words (words : List (List ι)) :
    inclusive (· ++ ·) words = runningFrom (· ++ ·) [] words := by
  cases words <;> rfl

theorem runningFrom_append : ∀ (w : List ι) (words words' : List (List ι)),
    runningFrom (· ++ ·) w (words ++ words') =
      runningFrom (· ++ ·) w words ++ runningFrom (· ++ ·) (w ++ words.flatten) words'
  | w, [], words' => by simp [runningFrom]
  | w, x :: rest, words' => by
    rw [List.cons_append, runningFrom, runningFrom_append, runningFrom, List.flatten_cons,
      List.append_assoc, List.cons_append]

theorem exclusive_append : ∀ (w : List ι) (words words' : List (List ι)),
    exclusive (· ++ ·) w (words ++ words') =
      exclusive (· ++ ·) w words ++ exclusive (· ++ ·) (w ++ words.flatten) words'
  | w, [], words' => by simp [exclusive]
  | w, x :: rest, words' => by
    rw [List.cons_append, exclusive, exclusive_append, exclusive, List.flatten_cons,
      List.append_assoc, List.cons_append]

theorem map_runningFrom (v : List ι) : ∀ (w : List ι) (words : List (List ι)),
    (runningFrom (· ++ ·) w words).map (v ++ ·) = runningFrom (· ++ ·) (v ++ w) words
  | w, [] => rfl
  | w, x :: rest => by
    rw [runningFrom, List.map_cons, map_runningFrom v (w ++ x), runningFrom, List.append_assoc]

theorem getElem?_runningFrom : ∀ (w : List ι) (words : List (List ι)) {i : Nat}, i < words.length →
    (runningFrom (· ++ ·) w words)[i]? = some (w ++ joined words 0 (i + 1))
  | w, x :: rest, 0, _ => by simp [runningFrom, joined_zero]
  | w, x :: rest, i + 1, hi => by
    have ih := getElem?_runningFrom (w ++ x) rest (Nat.lt_of_succ_lt_succ hi)
    rw [runningFrom, List.getElem?_cons_succ, ih]
    simp [joined_zero]

theorem getElem?_exclusive : ∀ (w : List ι) (words : List (List ι)) {i : Nat}, i < words.length →
    (exclusive (· ++ ·) w words)[i]? = some (w ++ joined words 0 i)
  | w, x :: rest, 0, _ => by simp [exclusive, joined_zero]
  | w, x :: rest, i + 1, hi => by
    have ih := getElem?_exclusive (w ++ x) rest (Nat.lt_of_succ_lt_succ hi)
    rw [exclusive, List.getElem?_cons_succ, ih]
    simp [joined_zero]

theorem getLast?_runningFrom {w : List ι} {words : List (List ι)} (h : words ≠ []) :
    (runningFrom (· ++ ·) w words).getLast? = some (w ++ words.flatten) := by
  have hpos := List.length_pos_iff.2 h
  rw [List.getLast?_eq_getElem?, length_runningFrom, getElem?_runningFrom w words (by omega),
    joined_zero, List.take_of_length_le (by omega)]

end Sequential

theorem Lockstep.scan_words (l : Lockstep) (words : List (List ι)) :
    l.scan (· ++ ·) words = Sequential.runningFrom (· ++ ·) [] words := by
  refine List.ext_getElem? fun i => ?_
  by_cases hi : i < words.length
  · rw [l.getElem?_scan_words words hi, Sequential.getElem?_runningFrom [] words hi,
      List.nil_append]
  · rw [List.getElem?_eq_none (by rw [length_scan]; omega),
      List.getElem?_eq_none (by rw [Sequential.length_runningFrom]; omega)]

/-! ## Chunks -/

theorem ne_nil_of_mem_chunks {size : Nat} {values chunk : List α} (h : chunk ∈ chunks size values) :
    chunk ≠ [] := by
  fun_induction chunks size values with
  | case1 values hv ih =>
    rcases List.mem_cons.1 h with rfl | h
    · simp only [ne_eq, List.take_eq_nil_iff, not_or]
      exact ⟨by omega, hv.2⟩
    · exact ih h
  | case2 => cases h

theorem length_chunks {size : Nat} (hs : 0 < size) (values : List α) :
    (chunks size values).length = cover values.length size := by
  fun_induction chunks size values with
  | case1 values hv ih =>
    rw [List.length_cons, ih, List.length_drop, cover_succ hs (List.length_pos_iff.2 hv.2)]
  | case2 values hv =>
    have hnil : values = [] := Classical.byContradiction fun h => hv ⟨hs, h⟩
    rw [hnil, List.length_nil, List.length_nil, cover, Nat.zero_add, Nat.div_eq_of_lt (by omega)]

/-- A full chunk, or the last one, is cut off as it is. -/
theorem chunks_append {size : Nat} {chunk rest : List α} (hne : chunk ≠ [])
    (hle : chunk.length ≤ size) (hfull : rest = [] ∨ chunk.length = size) :
    chunks size (chunk ++ rest) = chunk :: chunks size rest := by
  have hpos := List.length_pos_iff.2 hne
  rw [chunks_of_ne_nil (by omega) (List.append_ne_nil_of_left_ne_nil hne rest)]
  rcases hfull with rfl | hfull
  · rw [List.append_nil, List.take_of_length_le hle, List.drop_of_length_le hle]
  · rw [List.take_left' hfull, List.drop_left' hfull]

/-- Cutting up what was put together from chunks of unchanged lengths. -/
theorem chunks_flatten_map {size : Nat} {f : List α → List α}
    (hf : ∀ chunk, (f chunk).length = chunk.length) (values : List α) :
    chunks size ((chunks size values).map f).flatten = (chunks size values).map f := by
  fun_induction chunks size values with
  | case1 values hv ih =>
    rw [List.map_cons, List.flatten_cons]
    have hlen : (f (values.take size)).length = min size values.length := by
      rw [hf, List.length_take]
    have hpos := List.length_pos_iff.2 hv.2
    rw [chunks_append, ih]
    · exact List.length_pos_iff.1 (by omega)
    · omega
    · by_cases hfull : size ≤ values.length
      · exact .inr (by omega)
      · rw [List.drop_of_length_le (by omega), chunks_nil]
        exact .inl rfl
  | case2 values hv => simp

/-! ## Publishing lanes -/

/-- The last lane of every group of `size` among `count` lanes. -/
def lastLanes (size count : Nat) : List Nat :=
  (List.range count).filter fun lane => lane + 1 = min ((lane / size + 1) * size) count

theorem filter_range_last {n : Nat} (hn : 0 < n) :
    ((List.range n).filter fun lane => lane + 1 = n) = [n - 1] := by
  obtain ⟨n, rfl⟩ := Nat.exists_eq_add_of_lt hn
  rw [Nat.zero_add, List.range_succ, List.filter_append, List.filter_eq_nil_iff.2]
  · simp
  · intro lane hlane
    have := List.mem_range.1 hlane
    simp
    omega

/-- A single group. -/
theorem lastLanes_of_le {size count : Nat} (hpos : 0 < count) (hle : count ≤ size) :
    lastLanes size count = [count - 1] := by
  rw [lastLanes, ← filter_range_last hpos]
  refine List.filter_congr fun lane hlane => ?_
  have hlt := List.mem_range.1 hlane
  rw [Nat.div_eq_of_lt (by omega), Nat.zero_add, Nat.one_mul, Nat.min_eq_right hle]

/-- The first group, and the groups above it. -/
theorem lastLanes_add {size : Nat} (hs : 0 < size) (count : Nat) :
    lastLanes size (size + count) = (size - 1) :: (lastLanes size count).map (size + ·) := by
  rw [lastLanes, List.range_add, List.filter_append]
  have hfirst : ((List.range size).filter fun lane =>
      lane + 1 = min ((lane / size + 1) * size) (size + count)) = [size - 1] := by
    rw [← filter_range_last hs]
    refine List.filter_congr fun lane hlane => ?_
    have hlt := List.mem_range.1 hlane
    rw [Nat.div_eq_of_lt hlt, Nat.zero_add, Nat.one_mul, Nat.min_eq_left (Nat.le_add_right _ _)]
  have habove : (((List.range count).map (size + ·)).filter fun lane =>
      lane + 1 = min ((lane / size + 1) * size) (size + count)) =
        (lastLanes size count).map (size + ·) := by
    rw [List.filter_map]
    refine congrArg _ (List.filter_congr fun lane _ => ?_)
    have hdiv : (size + lane) / size = lane / size + 1 := by
      rw [Nat.add_comm, Nat.add_div_right _ hs]
    rw [Function.comp_apply, hdiv, Nat.succ_mul]
    congr 1
    apply propext
    omega
  rw [hfirst, habove]
  rfl

/-- The last lanes hold the last values of the groups. -/
theorem filterMap_lastLanes {size : Nat} (hs : 0 < size) (lanes : List α) :
    (lastLanes size lanes.length).filterMap (lanes[·]?) =
      (chunks size lanes).filterMap List.getLast? := by
  fun_induction chunks size lanes with
  | case1 lanes hv ih =>
    have hpos := List.length_pos_iff.2 hv.2
    have hlast : ([lanes.take size].filterMap List.getLast?) =
        [min size lanes.length - 1].filterMap (lanes[·]?) := by
      have hmin : min size lanes.length - 1 < size := by omega
      simp only [List.filterMap_cons, List.filterMap_nil, List.getLast?_eq_getElem?,
        List.length_take, List.getElem?_take, hmin, if_true]
    rw [← List.singleton_append, List.filterMap_append, hlast, ← ih, List.length_drop]
    -- the first group is the only one, or it is full and the others follow `size` lanes above
    by_cases hle : lanes.length ≤ size
    · rw [lastLanes_of_le hpos hle, Nat.min_eq_right hle, Nat.sub_eq_zero_of_le hle]
      exact (List.append_nil _).symm
    · have hlen : lanes.length = size + (lanes.length - size) := by omega
      conv => lhs; rw [hlen, lastLanes_add hs, ← List.singleton_append, List.filterMap_append,
        List.filterMap_map]
      rw [Nat.min_eq_left (by omega)]
      simp only [Function.comp_def, List.getElem?_drop]
  | case2 lanes hv =>
    have hnil : lanes = [] := Classical.byContradiction fun h => hv ⟨hs, h⟩
    subst hnil
    rfl

/-! ## The first three phases -/

namespace ScanPlan

variable (s : ScanPlan)

theorem groupSize_pos : 0 < s.groupSize := by
  have hwidth := Nat.pos_of_isPowerOfTwo s.lockstep.width_pow
  have hlanes := Nat.pos_of_isPowerOfTwo (isPowerOfTwo_ceilPowerOfTwo s.blockSize)
  exact Nat.lt_min.2 ⟨hwidth, hlanes⟩

/-- Every group on its own. -/
theorem scanGroups_words (words : List (List ι)) :
    s.scanGroups (· ++ ·) words =
      (chunks s.groupSize words).map (Sequential.runningFrom (· ++ ·) []) :=
  List.map_congr_left fun group _ => s.lockstep.scan_words group

theorem length_flatten_scanGroups (op : α → α → α) (input : List α) :
    (s.scanGroups op input).flatten.length = input.length := by
  have hscan : List.length ∘ s.lockstep.scan op = List.length := funext (s.lockstep.length_scan op)
  rw [scanGroups, List.length_flatten, List.map_map, hscan, ← List.length_flatten,
    flatten_chunks s.groupSize_pos]

theorem published_eq {scanned : List (List α)} (h : scanned.flatten.length = s.blockSize) :
    s.published scanned = (chunks s.groupSize scanned.flatten).filterMap List.getLast? := by
  rw [← filterMap_lastLanes s.groupSize_pos, h, published]
  simp only [List.getElem?_toArray]
  rfl

theorem length_published {scanned : List (List α)} (h : scanned.flatten.length = s.blockSize) :
    (s.published scanned).length = s.groups := by
  rw [s.published_eq h, groups, ← h, ← length_chunks s.groupSize_pos]
  refine List.filterMap_length_eq_length.2 fun group hgroup => ?_
  exact List.getLast?_isSome.2 (ne_nil_of_mem_chunks hgroup)

/-- **A slot holds all words up to the end of its group.** -/
theorem slots_words {words : List (List ι)} (h : words.length = s.blockSize) :
    s.slots (· ++ ·) (s.scanGroups (· ++ ·) words) =
      Sequential.runningFrom (· ++ ·) [] ((chunks s.groupSize words).map List.flatten) := by
  have hlen : (s.scanGroups (· ++ ·) words).flatten.length = s.blockSize := by
    rw [length_flatten_scanGroups, h]
  rw [slots, published_eq s hlen, Lockstep.scan_words, scanGroups_words,
    chunks_flatten_map fun chunk => Sequential.length_runningFrom _ _ _, List.filterMap_map]
  congr 1
  rw [← List.filterMap_eq_map]
  refine List.filterMap_congr fun group hgroup => ?_
  rw [Function.comp_apply, Sequential.getLast?_runningFrom (ne_nil_of_mem_chunks hgroup)]
  rfl

/-! ## Several values per lane -/

theorem laneItems_eq {items : Nat} {input : List α} (h : input.length = s.blockSize * items) :
    s.laneItems input = chunks items input := by
  rw [laneItems, h, Nat.mul_div_cancel_left _ s.blockSize_pos]

/-- Every lane has a reduction. -/
theorem length_reductions {op : α → α → α} {items : Nat} {input : List α} (hitems : 0 < items)
    (h : input.length = s.blockSize * items) :
    (s.reductions op input).length = s.blockSize := by
  have hsome : ∀ lane ∈ chunks items input, (reduceLane op lane).isSome := by
    intro lane hlane
    obtain ⟨x, rest, rfl⟩ := List.exists_cons_of_ne_nil (ne_nil_of_mem_chunks hlane)
    rfl
  rw [reductions, s.laneItems_eq h, List.filterMap_length_eq_length.2 hsome, length_chunks hitems,
    h, cover_mul _ hitems]

end ScanPlan

end LaneGrid
