import LaneGrid.Proofs.Scan.Phases

/-!
# Scans with associative operators

With an associative operator, the value of a word is all that matters: `scan_of_assoc` says that a
block scan leaves what one walk from the first value to the last leaves. The operator need not be
commutative, nor have an identity.

A word's value is what its letters come to (`ScanPlan.reduceLane`), nothing if it is empty. Joining
words merges their values (`reduceLane_append`), so that the scan of words carries over.
-/

namespace LaneGrid

open ScanPlan (reduceLane)

variable {α : Type} {op : α → α → α}

theorem total?_eq (op : α → α → α) (values : List α) :
    Sequential.total? op values = reduceLane op values := by
  have hlast : ∀ (rest : List α) (x : α),
      (x :: Sequential.runningFrom op x rest).getLast? = some (rest.foldl op x) := by
    intro rest
    induction rest with
    | nil => exact fun x => rfl
    | cons y rest ih =>
      intro x
      rw [Sequential.runningFrom, List.getLast?_cons_cons, ih, List.foldl_cons]
  cases values with
  | nil => rfl
  | cons x rest => exact hlast rest x

theorem some_op (op : α → α → α) (a b : α) : some (op a b) = (some a).merge op (some b) := rfl

theorem map_reduceLane_letters (op : α → α → α) (input : List α) :
    (input.map fun x => [x]).map (reduceLane op) = input.map some := by
  rw [List.map_map]
  rfl

theorem map_reduceLane_seed (op : α → α → α) (m : ScanMethod α) :
    (m.map fun x => [x]).map (reduceLane op) = m.map some := by
  cases m <;> rfl

/-- An input that fits, letter by letter. -/
theorem ScanPlan.Fits.letters {s : ScanPlan} {m : ScanMethod α} {items : Nat} {input : List α}
    (h : s.Fits m items input.length) :
    s.Fits (m.map fun x => [x]) items (input.map fun x => [x]).length := by
  rw [List.length_map]
  exact h.map

variable (hassoc : ∀ a b c, op (op a b) c = op a (op b c))
include hassoc

theorem foldl_assoc (a : α) : ∀ (b : α) (rest : List α),
    rest.foldl op (op a b) = op a (rest.foldl op b)
  | b, [] => rfl
  | b, x :: rest => by
    rw [List.foldl_cons, hassoc, foldl_assoc a (op b x) rest, List.foldl_cons]

theorem reduceLane_append (v w : List α) :
    reduceLane op (v ++ w) = (reduceLane op v).merge op (reduceLane op w) := by
  cases v with
  | nil => cases w <;> rfl
  | cons a v =>
    cases w with
    | nil => rw [List.append_nil]; rfl
    | cons b w =>
      show some ((v ++ b :: w).foldl op a) = some (op (v.foldl op a) (w.foldl op b))
      rw [List.foldl_append, List.foldl_cons, foldl_assoc hassoc]

/-- A scan is the scan of its input's letters, evaluated. -/
theorem run_of_assoc (s : ScanPlan) (m : ScanMethod α) (input : List α) :
    (s.run m op input).map some =
      (s.run (m.map fun x => [x]) (· ++ ·) (input.map fun x => [x])).map (reduceLane op) := by
  rw [s.run_map (some_op op), s.run_map (reduceLane_append hassoc), map_reduceLane_seed,
    map_reduceLane_letters]

theorem sequential_of_assoc (m : ScanMethod α) (input : List α) :
    (m.sequential op input).map some =
      ((m.map fun x => [x]).sequential (· ++ ·) (input.map fun x => [x])).map (reduceLane op) := by
  rw [ScanMethod.sequential_map (some_op op), ScanMethod.sequential_map (reduceLane_append hassoc),
    map_reduceLane_seed, map_reduceLane_letters]

/-- A lockstep group, too, leaves what one walk along its lanes leaves. -/
theorem Lockstep.scan_eq_inclusive (l : Lockstep) (lanes : List α) :
    l.scan op lanes = Sequential.inclusive op lanes := by
  refine List.map_injective_iff.2 (fun _ _ => Option.some.inj) ?_
  have hwords : l.scan (· ++ ·) (lanes.map fun x => [x]) =
      Sequential.inclusive (· ++ ·) (lanes.map fun x => [x]) := by
    rw [l.scan_words, Sequential.inclusive_words]
  have hsequential := sequential_of_assoc hassoc .inclusive lanes
  rw [ScanMethod.sequential] at hsequential
  rw [hsequential, scan_map (some_op op), ← map_reduceLane_letters op,
    ← scan_map (reduceLane_append hassoc), hwords]
  rfl

section
variable {s : ScanPlan} {items : Nat} {input : List α} {m : ScanMethod α}
  (h : s.Fits m items input.length)
include h

theorem output_of_assoc : (s.run m op input).output = m.sequential op input := by
  -- compared inside `Option`, where the empty word has a value too
  refine List.map_injective_iff.2 (fun _ _ => Option.some.inj) ?_
  rw [sequential_of_assoc hassoc, ← s.output_words h.letters]
  exact congrArg Scanned.output (run_of_assoc hassoc s m input)

theorem total_of_assoc : (s.run m op input).total = Sequential.total? op input := by
  have hrun := congrArg Scanned.total (run_of_assoc hassoc s m input)
  rw [Scanned.total_map, Scanned.total_map, s.total_words h.letters, Option.map_some] at hrun
  obtain ⟨x, hx, hreduce⟩ := Option.map_eq_some_iff.1 hrun
  rw [hx, hreduce, total?_eq]
  exact congrArg _ (List.flatMap_singleton' input)

theorem scan_sequential : ∃ r, s.scan m op input input.length = .ok r ∧
    r.output = m.sequential op input ∧ r.total = Sequential.total? op input :=
  ⟨_, h.scan_ok op, output_of_assoc hassoc h, total_of_assoc hassoc h⟩

end

/-- **Block scans are sequential scans** for every associative operator, commutative or not. -/
theorem scan_of_assoc (s : ScanPlan) {input : List α} (h : input.length = s.blockSize) :
    (∃ r, s.scan .inclusive op input input.length = .ok r ∧
      r.output = Sequential.inclusive op input ∧ r.total = Sequential.total? op input) ∧
    (∀ init, ∃ r, s.scan (.exclusive init) op input input.length = .ok r ∧
      r.output = Sequential.exclusive op init input ∧ r.total = Sequential.total? op input) ∧
    ∃ r, s.scan .unseeded op input input.length = .ok r ∧ r.output.length = s.blockSize ∧
      (∀ i, 0 < i → i < s.blockSize → r.output[i]? = (Sequential.inclusive op input)[i - 1]?) ∧
      r.total = Sequential.total? op input := by
  have hfits : ∀ m : ScanMethod α, s.Fits m 1 input.length :=
    fun m => ⟨Nat.one_pos, fun _ => rfl, by rw [h, Nat.mul_one]⟩
  have hscan := fun m => scan_sequential hassoc (hfits m)
  refine ⟨hscan .inclusive, fun init => hscan (.exclusive init), ?_⟩
  obtain ⟨r, hr, houtput, htotal⟩ := hscan .unseeded
  refine ⟨r, hr, ?_, fun i hpos hlt => ?_, htotal⟩
  · rw [houtput, ScanMethod.sequential, length_shiftUp, Sequential.length_inclusive, h]
  · rw [houtput, ScanMethod.sequential, getElem?_shiftUp none hpos]
    rwa [Sequential.length_inclusive, h]

/-- Seven lanes in groups of four. -/
def sevenLanes : ScanPlan := ⟨⟨.shuffle, 4, 2, rfl⟩, 7, by decide, by cbv⟩

omit hassoc in
/-- Joining lists is not commutative. -/
theorem scan_sevenLanes :
    ∃ r, sevenLanes.scan .inclusive (· ++ ·) [[0], [1], [2, 2], [], [4], [5], [6]] 7 = .ok r ∧
      r.output = Sequential.inclusive (· ++ ·) [[0], [1], [2, 2], [], [4], [5], [6]] ∧
      r.total = Sequential.total? (· ++ ·) [[0], [1], [2, 2], [], [4], [5], [6]] :=
  (scan_of_assoc List.append_assoc sevenLanes rfl).1

end LaneGrid
