import LaneGrid.Lockstep

/-!
# What a lockstep group leaves

The scan of a group, on words: lists that are joined, so that a lane shows which lanes went into it
and in which order.

* `getElem?_shufflePass`: a pass that runs down the lanes in place combines every lane with what the
  lane below it held before the pass, whatever the operator.
* `Holds`: the invariant of both scans: every lane holds the words from some lane on up to its own.
* `getElem?_scan_words`: in the end every lane holds the words from the first lane on.
-/

namespace LaneGrid

variable {α ι : Type}

/-! ## Consecutive words -/

/-- The words from number `start` up to, but not including, number `stop`, joined. -/
def joined (words : List (List ι)) (start stop : Nat) : List ι :=
  ((words.drop start).take (stop - start)).flatten

theorem joined_append (words : List (List ι)) {start middle stop : Nat} (h1 : start ≤ middle)
    (h2 : middle ≤ stop) :
    joined words start middle ++ joined words middle stop = joined words start stop := by
  have hlen : stop - start = (middle - start) + (stop - middle) := by omega
  rw [joined, joined, joined, hlen, List.take_add, List.flatten_append, List.drop_drop,
    Nat.add_sub_of_le h1]

theorem joined_one {words : List (List ι)} {i : Nat} {w : List ι} (h : words[i]? = some w) :
    joined words i (i + 1) = w := by
  obtain ⟨hlt, rfl⟩ := List.getElem?_eq_some_iff.1 h
  rw [joined, Nat.add_sub_cancel_left, List.drop_eq_getElem_cons hlt, List.take_succ_cons,
    List.take_zero, List.flatten_singleton]

theorem joined_zero (words : List (List ι)) (stop : Nat) :
    joined words 0 stop = (words.take stop).flatten := rfl

namespace Lockstep

/-! ## One pass -/

theorem combine_of_le (op : α → α → α) (offset : Nat) {lane : Nat} {lanes : Array α}
    (h : lanes.size ≤ lane) : combine op offset lane lanes = lanes := by
  unfold combine
  rw [Array.getElem?_eq_none h]
  cases lanes[lane - offset]? <;> rfl

theorem getElem?_combine (op : α → α → α) (offset lane : Nat) (lanes : Array α) (i : Nat) :
    (combine op offset lane lanes)[i]? =
      if i = lane then lanes[lane - offset]?.bind fun below => lanes[lane]?.map (op below)
      else lanes[i]? := by
  by_cases hlane : lane < lanes.size
  · rw [combine, Array.getElem?_eq_getElem hlane,
      Array.getElem?_eq_getElem (i := lane - offset) (by omega)]
    dsimp only
    rw [Array.getElem?_setIfInBounds]
    by_cases hi : i = lane
    · simp [hi, hlane]
    · simp [hi, Ne.symm hi]
  · rw [combine_of_le op offset (Nat.le_of_not_lt hlane)]
    by_cases hi : i = lane
    · rw [if_pos hi, hi, Array.getElem?_eq_none (Nat.le_of_not_lt hlane)]
      cases lanes[lane - offset]? <;> rfl
    · rw [if_neg hi]

/-- The lanes from `start` on, combined from the last one down: every lane reads the pass before,
since the lanes below it come later. -/
theorem getElem?_foldr_combine (op : α → α → α) {offset : Nat} (hoffset : 0 < offset)
    (lanes : Array α) (i : Nat) : ∀ (count start : Nat), offset ≤ start →
    ((List.range' start count).foldr (combine op offset) lanes)[i]? =
      if start ≤ i ∧ i < start + count then
        lanes[i - offset]?.bind fun below => lanes[i]?.map (op below)
      else lanes[i]?
  | 0, start, _ => by
    rw [if_neg (by omega)]
    rfl
  | count + 1, start, hstart => by
    -- lane `start` comes last: the lanes above it have changed, and the ones it reads have not
    rw [List.range'_succ, List.foldr_cons, getElem?_combine]
    have ih := fun i => getElem?_foldr_combine op hoffset lanes i count (start + 1) (by omega)
    by_cases hi : i = start
    · rw [if_pos hi, ih, ih, if_neg (by omega), if_neg (by omega), if_pos (by omega), hi]
    · rw [if_neg hi, ih]
      by_cases hin : start + 1 ≤ i ∧ i < start + 1 + count
      · rw [if_pos hin, if_pos (by omega)]
      · rw [if_neg hin, if_neg (by omega)]

/-- **A pass is a simultaneous update**: it leaves in every lane from `offset` on the combination of
what two lanes held before it. -/
theorem getElem?_shufflePass (op : α → α → α) {offset : Nat} (hoffset : 0 < offset)
    (lanes : Array α) (i : Nat) :
    (shufflePass op offset lanes)[i]? =
      if offset ≤ i then lanes[i - offset]?.bind fun below => lanes[i]?.map (op below)
      else lanes[i]? := by
  unfold shufflePass
  rw [getElem?_foldr_combine op hoffset lanes i _ _ (Nat.le_refl offset)]
  by_cases hi : i < lanes.size
  · by_cases hlt : offset ≤ i
    · rw [if_pos (by omega), if_pos hlt]
    · rw [if_neg (by omega), if_neg hlt]
  · have hnone : lanes[i]? = none := Array.getElem?_eq_none (Nat.le_of_not_lt hi)
    rw [if_neg (by omega), hnone]
    split
    · cases lanes[i - offset]? <;> rfl
    · rfl

/-! ## Scans of words -/

/-- Lane `i` holds the words of the lanes from `start i` up to `i`. -/
def Holds (words : List (List ι)) (start : Nat → Nat) (lanes : Array (List ι)) : Prop :=
  ∀ i < words.length, lanes[i]? = some (joined words (start i) (i + 1))

theorem holds_toArray (words : List (List ι)) : Holds words id words.toArray := by
  intro i hi
  have hget := List.getElem?_eq_getElem hi
  rw [List.getElem?_toArray, hget, id, joined_one hget]

variable {words : List (List ι)} {lanes : Array (List ι)}

/-- A pass doubles the number of words in a lane. -/
theorem holds_shufflePass {offset : Nat} (hoffset : 0 < offset)
    (h : Holds words (· + 1 - offset) lanes) :
    Holds words (· + 1 - 2 * offset) (shufflePass (· ++ ·) offset lanes) := by
  intro i hi
  rw [getElem?_shufflePass _ hoffset]
  by_cases hle : offset ≤ i
  · rw [if_pos hle, h i hi, h (i - offset) (by omega), Option.bind_some, Option.map_some]
    have hmiddle : i - offset + 1 = i + 1 - offset := by omega
    have hstart : i + 1 - offset - offset = i + 1 - 2 * offset := by omega
    dsimp only
    rw [hmiddle, hstart, joined_append words (by omega) (by omega)]
  · have hstart : i + 1 - offset = i + 1 - 2 * offset := by omega
    rw [if_neg hle, h i hi]
    dsimp only
    rw [hstart]

theorem holds_shufflePasses {count offset : Nat} (hoffset : 0 < offset)
    (hcount : words.length ≤ count) (h : Holds words (· + 1 - offset) lanes) :
    Holds words (fun _ => 0) (shufflePasses (· ++ ·) count offset lanes) := by
  fun_induction shufflePasses (· ++ ·) count offset lanes with
  | case1 offset lanes hlt ih => exact ih (by omega) (holds_shufflePass hoffset h)
  | case2 offset lanes hlt =>
    -- `offset` is past the last lane, so that every lane reaches down to the first one
    intro i hi
    have hstart : i + 1 - offset = 0 := by omega
    rw [h i hi]
    dsimp only
    rw [hstart]

/-- After the lanes below `lane` are combined, the next one reaches down to the first lane. -/
theorem holds_combine {lane : Nat} (hlane : 0 < lane)
    (h : Holds words (fun i => if i < lane then 0 else i) lanes) :
    Holds words (fun i => if i < lane + 1 then 0 else i) (combine (· ++ ·) 1 lane lanes) := by
  intro i hi
  rw [getElem?_combine]
  by_cases heq : i = lane
  · subst heq
    rw [if_pos rfl, h i hi, h (i - 1) (by omega), Option.bind_some, Option.map_some]
    simp only [Nat.sub_lt hlane Nat.one_pos, Nat.lt_irrefl, Nat.lt_succ_self, if_true, if_false]
    rw [Nat.sub_add_cancel hlane, joined_append words (Nat.zero_le i) (Nat.le_succ i)]
  · rw [if_neg heq, h i hi]
    by_cases hlt : i < lane
    · simp only [hlt, Nat.lt_succ_of_lt hlt, if_true]
    · simp only [hlt, show ¬i < lane + 1 by omega, if_false]

theorem holds_foldl_combine : ∀ (count lane : Nat) (lanes : Array (List ι)), 0 < lane →
    Holds words (fun i => if i < lane then 0 else i) lanes →
    Holds words (fun i => if i < lane + count then 0 else i)
      ((List.range' lane count).foldl (fun lanes lane => combine (· ++ ·) 1 lane lanes) lanes)
  | 0, _, _, _, h => h
  | count + 1, lane, lanes, hlane, h => by
    rw [List.range'_succ, List.foldl_cons, show lane + (count + 1) = lane + 1 + count by omega]
    exact holds_foldl_combine count (lane + 1) _ (by omega) (holds_combine hlane h)

/-- **Every lane of a group ends with all words up to its own**, in order. -/
theorem getElem?_scan_words (l : Lockstep) (words : List (List ι)) {i : Nat}
    (hi : i < words.length) : (l.scan (· ++ ·) words)[i]? = some (joined words 0 (i + 1)) := by
  have hstart := holds_toArray words
  unfold scan scanLanes
  rw [Array.getElem?_toList]
  cases l.kind with
  | shuffle =>
    refine holds_shufflePasses Nat.one_pos (by simp) (fun i hi => ?_) i hi
    exact hstart i hi
  | serial =>
    dsimp only
    unfold serialPass
    have hone : Holds words (fun i => if i < 1 then 0 else i) words.toArray := by
      intro i hi
      rw [hstart i hi]
      cases i <;> rfl
    have hlast : i < 1 + (words.length - 1) := by omega
    rw [List.size_toArray, holds_foldl_combine _ 1 _ Nat.one_pos hone i hi]
    simp only [hlast, if_true]

end Lockstep

end LaneGrid
