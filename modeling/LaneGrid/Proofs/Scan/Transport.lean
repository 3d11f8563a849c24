import Mathlib.Logic.Basic
import LaneGrid.Scan.Sequential
import LaneGrid.Proofs.Scan.Run

/-!
# Scans commute with homomorphisms

A scan only moves values and combines them. `run_map`: a map `h` that takes one operator to another
takes the scan with the first one to the scan with the second one. What a scan does with its
operands can so be read off a scan of symbols.
-/

namespace LaneGrid

variable {α β : Type} {op : α → α → α} {op' : β → β → β} {h : α → β}

/-! ## Lists -/

theorem chunks_map (h : α → β) (size : Nat) (values : List α) :
    (chunks size values).map (List.map h) = chunks size (values.map h) := by
  fun_induction chunks size values with
  | case1 values hv ih =>
    have hmap : values.map h ≠ [] := by simpa using hv.2
    rw [List.map_cons, ih, chunks_of_ne_nil hv.1 hmap, List.map_take, List.map_drop]
  | case2 values hv =>
    rw [chunks, if_neg (by simpa using hv), List.map_nil]

theorem shiftUp_map (h : α → β) (lane0 : Option α) (lanes : List α) :
    (shiftUp lane0 lanes).map h = shiftUp (lane0.map h) (lanes.map h) := by
  cases lanes with
  | nil => rfl
  | cons own above => cases lane0 <;> simp [shiftUp, List.map_dropLast]

/-- Above lane 0, a lane receives what the lane below it held. -/
theorem getElem?_shiftUp (lane0 : Option α) {lanes : List α} {i : Nat} (hpos : 0 < i)
    (hlt : i < lanes.length) : (shiftUp lane0 lanes)[i]? = lanes[i - 1]? := by
  obtain ⟨i, rfl⟩ := Nat.exists_eq_add_of_lt hpos
  cases lanes with
  | nil => simp at hlt
  | cons own above =>
    rw [shiftUp, List.getElem?_cons_succ, List.getElem?_dropLast, if_pos (by simpa using hlt)]
    rfl

theorem getElem?_toArray_map (h : α → β) (lanes : List α) (i : Nat) :
    (lanes.map h).toArray[i]? = lanes.toArray[i]?.map h := by
  simp

variable (hop : ∀ a b, h (op a b) = op' (h a) (h b))
include hop

theorem scanl_map (before : α) : ∀ items : List α,
    (items.scanl op before).map h = (items.map h).scanl op' (h before)
  | [] => rfl
  | x :: rest => by
    rw [List.scanl_cons, List.map_cons, scanl_map, hop, List.map_cons, List.scanl_cons]

/-! ## Lockstep groups -/

namespace Lockstep

theorem combine_map (offset lane : Nat) (lanes : Array α) :
    (combine op offset lane lanes).map h = combine op' offset lane (lanes.map h) := by
  unfold combine
  rw [Array.getElem?_map, Array.getElem?_map]
  cases lanes[lane - offset]? with
  | none => rfl
  | some below =>
    cases lanes[lane]? with
    | none => rfl
    | some own => simp [hop]

theorem shufflePass_map (offset : Nat) (lanes : Array α) :
    (shufflePass op offset lanes).map h = shufflePass op' offset (lanes.map h) := by
  unfold shufflePass
  rw [Array.size_map]
  induction List.range' offset (lanes.size - offset) with
  | nil => rfl
  | cons lane rest ih => rw [List.foldr_cons, combine_map hop, ih, List.foldr_cons]

theorem shufflePasses_map (count offset : Nat) (lanes : Array α) :
    (shufflePasses op count offset lanes).map h = shufflePasses op' count offset (lanes.map h) := by
  fun_induction shufflePasses op count offset lanes with
  | case1 offset lanes hlt ih =>
    rw [ih, shufflePass_map hop]
    conv => rhs; rw [shufflePasses, if_pos hlt]
  | case2 offset lanes hlt => rw [shufflePasses, if_neg hlt]

theorem serialPass_map (lanes : Array α) :
    (serialPass op lanes).map h = serialPass op' (lanes.map h) := by
  unfold serialPass
  rw [Array.size_map]
  generalize lanes.size - 1 = count
  induction List.range' 1 count generalizing lanes with
  | nil => rfl
  | cons lane rest ih => rw [List.foldl_cons, ih, combine_map hop, List.foldl_cons]

theorem scan_map (l : Lockstep) (lanes : List α) :
    (l.scan op lanes).map h = l.scan op' (lanes.map h) := by
  unfold scan scanLanes
  rw [← Array.toList_map, ← List.map_toArray, Array.size_map]
  cases l.kind with
  | shuffle => exact congrArg _ (shufflePasses_map hop _ _ _)
  | serial => exact congrArg _ (serialPass_map hop _)

end Lockstep

/-! ## Blocks -/

/-- The same way to scan, from the seed's image. -/
def ScanMethod.map (h : α → β) : ScanMethod α → ScanMethod β
  | .inclusive => .inclusive
  | .exclusive init => .exclusive (h init)
  | .unseeded => .unseeded
  | .inclusiveBlocked => .inclusiveBlocked
  | .exclusiveBlocked init => .exclusiveBlocked (h init)

omit hop in
theorem ScanMethod.isBlocked_map (h : α → β) (m : ScanMethod α) :
    (m.map h).isBlocked = m.isBlocked := by
  cases m <;> rfl

/-- A scan's result in images. -/
def Scanned.map (h : α → β) (r : Scanned α) : Scanned β := ⟨r.output.map h, r.slots.map h⟩

omit hop in
theorem Scanned.total_map (h : α → β) (r : Scanned α) : (r.map h).total = r.total.map h := by
  rw [total, total, Scanned.map, List.getLast?_map]

omit hop in
/-- Groups with what stands before each of them, in images. -/
theorem zipWith_flatten_map {γ δ : Type} {f : γ → List α → List α} {f' : δ → List β → List β}
    {g : γ → δ} (hf : ∀ before lanes, (f before lanes).map h = f' (g before) (lanes.map h))
    (befores : List γ) (groups : List (List α)) :
    (List.zipWith f befores groups).flatten.map h =
      (List.zipWith f' (befores.map g) (groups.map (List.map h))).flatten := by
  rw [List.map_flatten, List.map_zipWith, List.zipWith_map]
  simp only [hf]

namespace ScanPlan

variable (s : ScanPlan)

omit hop in
theorem prefixes_map (h : α → β) (slots : List α) :
    (prefixes slots).map (Option.map h) = prefixes (slots.map h) := by
  simp [prefixes]

theorem scanGroups_map (input : List α) :
    (s.scanGroups op input).map (List.map h) = s.scanGroups op' (input.map h) := by
  unfold scanGroups
  rw [← chunks_map, List.map_map, List.map_map]
  exact List.map_congr_left fun group _ => Lockstep.scan_map hop s.lockstep group

omit hop in
theorem published_map (h : α → β) (scanned : List (List α)) :
    (s.published scanned).map h = s.published (scanned.map (List.map h)) := by
  unfold published
  dsimp only
  rw [List.map_filterMap, ← List.map_flatten]
  simp only [getElem?_toArray_map]

theorem slots_map (input : List α) :
    (s.slots op (s.scanGroups op input)).map h =
      s.slots op' (s.scanGroups op' (input.map h)) := by
  rw [slots, slots, Lockstep.scan_map hop, published_map, scanGroups_map hop]

theorem withPrefix_map (before : Option α) (lanes : List α) :
    (withPrefix op before lanes).map h = withPrefix op' (before.map h) (lanes.map h) := by
  cases before <;> simp [withPrefix, hop]

theorem finish_map (m : ScanMethod α) (slot : Option α) (lanes : List α) :
    (m.finish op slot lanes).map h = (m.map h).finish op' (slot.map h) (lanes.map h) := by
  have hseeded (init : α) :
      ((ScanMethod.exclusive init).finish op slot lanes).map h =
        (ScanMethod.exclusive (h init)).finish op' (slot.map h) (lanes.map h) := by
    have hbefore : h (slot.elim init (op init)) = (slot.map h).elim (h init) (op' (h init)) := by
      cases slot with
      | none => rfl
      | some slot => exact hop init slot
    simp only [ScanMethod.finish, shiftUp_map, withPrefix_map hop, Option.map_some, hbefore]
  have hshifted : (ScanMethod.unseeded.finish op slot lanes).map h =
      ScanMethod.unseeded.finish op' (slot.map h) (lanes.map h) := by
    simp only [ScanMethod.finish, shiftUp_map, withPrefix_map hop]
  cases m with
  | inclusive => exact withPrefix_map hop slot lanes
  | exclusive init => exact hseeded init
  | unseeded => exact hshifted
  | inclusiveBlocked => exact hshifted
  | exclusiveBlocked init => exact hseeded init

theorem lanes_map (m : ScanMethod α) (input : List α) :
    (s.lanes op (m.finish op) input).map h =
      s.lanes op' ((m.map h).finish op') (input.map h) := by
  refine congrArg₂ Scanned.mk ?_ (slots_map hop s input)
  refine (zipWith_flatten_map (finish_map hop m) _ _).trans ?_
  rw [prefixes_map, slots_map hop, scanGroups_map hop]

/-! ## Several values per lane -/

theorem reduceLane_map (items : List α) :
    (reduceLane op items).map h = reduceLane op' (items.map h) := by
  cases items with
  | nil => rfl
  | cons x rest =>
    rw [reduceLane, Option.map_some, List.map_cons, reduceLane, List.foldl_map,
      List.foldl_hom h fun a b => (hop a b).symm]

theorem expandInclusive_map (before : Option α) (items : List α) :
    (expandInclusive op before items).map h = expandInclusive op' (before.map h) (items.map h) := by
  cases before with
  | some before => rw [expandInclusive, List.map_tail, scanl_map hop]; rfl
  | none =>
    cases items with
    | nil => rfl
    | cons x rest => rw [expandInclusive, scanl_map hop]; rfl

theorem expandExclusive_map (before : α) (items : List α) :
    (expandExclusive op before items).map h = expandExclusive op' (h before) (items.map h) := by
  rw [expandExclusive, List.map_dropLast, scanl_map hop, expandExclusive]

omit hop in
theorem laneItems_map (h : α → β) (input : List α) :
    (s.laneItems input).map (List.map h) = s.laneItems (input.map h) := by
  rw [laneItems, chunks_map, laneItems, List.length_map]

theorem reductions_map (input : List α) :
    (s.reductions op input).map h = s.reductions op' (input.map h) := by
  rw [reductions, reductions, List.map_filterMap, ← laneItems_map, List.filterMap_map]
  simp only [reduceLane_map hop]
  rfl

theorem expand_map (m : ScanMethod α) (items : List (List α)) (output : List α) :
    (m.expand op items output).map h =
      (m.map h).expand op' (items.map (List.map h)) (output.map h) := by
  cases m with
  | inclusive => rfl
  | exclusive init => rfl
  | unseeded => rfl
  | inclusiveBlocked =>
    simp only [ScanMethod.expand, inclusiveItems, zipWith_flatten_map (expandInclusive_map hop),
      prefixes_map, List.map_tail, ScanMethod.map]
  | exclusiveBlocked init =>
    exact zipWith_flatten_map (expandExclusive_map hop) output items

theorem expandLanes_map (m : ScanMethod α) (input : List α) (lanes : Scanned α) :
    (s.expandLanes m op input lanes).map h =
      s.expandLanes (m.map h) op' (input.map h) (lanes.map h) := by
  unfold expandLanes Scanned.map
  rw [expand_map hop, laneItems_map]

/-- **A scan commutes with a homomorphism** of its operator. -/
theorem run_map (m : ScanMethod α) (input : List α) :
    (s.run m op input).map h = s.run (m.map h) op' (input.map h) := by
  rw [run_eq, run_eq, ScanMethod.isBlocked_map, ← reductions_map hop, ← lanes_map hop,
    ← lanes_map hop, ← expandLanes_map hop]
  cases m.isBlocked <;> rfl

end ScanPlan

/-! ## Sequential scans -/

namespace Sequential

theorem runningFrom_map (before : α) : ∀ values : List α,
    (runningFrom op before values).map h = runningFrom op' (h before) (values.map h)
  | [] => rfl
  | x :: rest => by
    rw [runningFrom, List.map_cons, runningFrom_map, hop, List.map_cons, runningFrom]

theorem inclusive_map (values : List α) :
    (inclusive op values).map h = inclusive op' (values.map h) := by
  cases values with
  | nil => rfl
  | cons x rest => rw [inclusive, List.map_cons, runningFrom_map hop, List.map_cons, inclusive]

theorem exclusive_map (init : α) : ∀ values : List α,
    (exclusive op init values).map h = exclusive op' (h init) (values.map h)
  | [] => rfl
  | x :: rest => by
    rw [exclusive, List.map_cons, exclusive_map, hop, List.map_cons, exclusive]

end Sequential

/-- The values that a method is meant to leave: one walk along all values; without a seed, the first
lane keeps its own. -/
def ScanMethod.sequential (op : α → α → α) (input : List α) : ScanMethod α → List α
  | .inclusive | .inclusiveBlocked => Sequential.inclusive op input
  | .exclusive init | .exclusiveBlocked init => Sequential.exclusive op init input
  | .unseeded => shiftUp none (Sequential.inclusive op input)

theorem ScanMethod.sequential_map (m : ScanMethod α) (input : List α) :
    (m.sequential op input).map h = (m.map h).sequential op' (input.map h) := by
  cases m with
  | inclusive => exact Sequential.inclusive_map hop input
  | exclusive init => exact Sequential.exclusive_map hop init input
  | unseeded => exact (shiftUp_map h none _).trans (congrArg _ (Sequential.inclusive_map hop input))
  | inclusiveBlocked => exact Sequential.inclusive_map hop input
  | exclusiveBlocked init => exact Sequential.exclusive_map hop init input

end LaneGrid
