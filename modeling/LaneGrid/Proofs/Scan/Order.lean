import LaneGrid.Proofs.Scan.Phases

/-!
# Scans keep the order of their operands

What a scan leaves at a position is the value of one tree of combinations, the same for all
operators and inputs (`exists_combination`). Its leaves, from left to right, are the operands that
the position stands for (`ScanMethod.operands`), each once: a scan with an operator that is not
associative, such as addition of floating-point numbers, only associates in a way of its own.

The trees are what the scan of the leaves themselves leaves. Listing their leaves takes this to a
scan of words, and evaluating them takes it to the scan of any input.
-/

namespace LaneGrid

variable {α : Type}

/-! ## Combinations -/

/-- What is combined: the seed, and the values of the input. -/
inductive Operand where
  | seed
  | item (index : Nat)
deriving DecidableEq

/-- A way to combine operands. -/
inductive Combination where
  | leaf (operand : Operand)
  | node (left right : Combination)
deriving DecidableEq

/-- An operator on values that may be missing. -/
def liftOp (op : α → α → α) (a b : Option α) : Option α := a.bind fun a => b.map (op a)

namespace Combination

/-- The operands from left to right. -/
def leaves : Combination → List Operand
  | leaf operand => [operand]
  | node left right => left.leaves ++ right.leaves

/-- The value of a combination, if all of its operands have one. -/
def eval (op : α → α → α) (value : Operand → Option α) : Combination → Option α
  | leaf operand => value operand
  | node left right => liftOp op (left.eval op value) (right.eval op value)

theorem eval_node (op : α → α → α) (value : Operand → Option α) (left right : Combination) :
    (node left right).eval op value = liftOp op (left.eval op value) (right.eval op value) := rfl

end Combination

theorem some_eq_liftOp (op : α → α → α) (a b : α) : some (op a b) = liftOp op (some a) (some b) :=
  rfl

namespace ScanMethod

/-- The method without its seed. -/
def shape (m : ScanMethod α) : ScanMethod Unit := m.map fun _ => ()

/-- The values that a scan of an input combines. -/
def operand (m : ScanMethod α) (input : List α) : Operand → Option α
  | .seed => match m with
    | .exclusive init | .exclusiveBlocked init => some init
    | _ => none
  | .item index => input[index]?

/-- The operands that a position stands for. -/
def operands (i : Nat) : ScanMethod α → List Operand
  | .inclusive | .inclusiveBlocked => (List.range (i + 1)).map .item
  | .exclusive _ | .exclusiveBlocked _ => .seed :: (List.range i).map .item
  | .unseeded => (List.range i).map .item

end ScanMethod

/-! ## Scans of leaves -/

/-- The leaves of an input of `length` values. -/
def leafInput (length : Nat) : List Combination := (List.range length).map fun i => .leaf (.item i)

/-- The scan of the leaves themselves. -/
def ScanPlan.symbolic (s : ScanPlan) (shape : ScanMethod Unit) (length : Nat) :
    Scanned Combination :=
  s.run (shape.map fun _ => .leaf .seed) .node (leafInput length)

/-! ## Listing the leaves -/

/-- The operands of an input of `length` values, as words. -/
def itemWords (length : Nat) : List (List Operand) := (List.range length).map fun i => [.item i]

theorem joined_itemWords {stop length : Nat} (h : stop ≤ length) :
    joined (itemWords length) 0 stop = (List.range stop).map .item := by
  rw [joined_zero, itemWords, ← List.map_take, List.take_range, Nat.min_eq_left h,
    ← List.flatMap_def, List.map_eq_flatMap]

theorem leaves_symbolic (s : ScanPlan) (shape : ScanMethod Unit) (length : Nat) :
    (s.symbolic shape length).map Combination.leaves =
      s.run (shape.map fun _ => [.seed]) (· ++ ·) (itemWords length) := by
  have hseed : (shape.map fun _ => Combination.leaf .seed).map Combination.leaves =
      shape.map fun _ => [.seed] := by cases shape <;> rfl
  have hinput : (leafInput length).map Combination.leaves = itemWords length := by
    rw [leafInput, List.map_map]
    rfl
  have hnode : ∀ a b, (Combination.node a b).leaves = a.leaves ++ b.leaves := fun _ _ => rfl
  rw [ScanPlan.symbolic, s.run_map hnode, hseed, hinput]

/-- A walk along the operands stops at each position with those that the position stands for. -/
theorem sequential_operands (shape : ScanMethod Unit) {i length : Nat} (hi : i < length)
    (hpos : shape = .unseeded → 0 < i) :
    ((shape.map fun _ => [Operand.seed]).sequential (· ++ ·) (itemWords length))[i]? =
      some (shape.operands i) := by
  have hlen : i < (itemWords length).length := by simpa [itemWords] using hi
  have hinclusive : ∀ i < length, (Sequential.inclusive (· ++ ·) (itemWords length))[i]? =
      some ((List.range (i + 1)).map .item) := by
    intro i hi
    have hlen : i < (itemWords length).length := by simpa [itemWords] using hi
    rw [Sequential.inclusive_words, Sequential.getElem?_runningFrom _ _ hlen,
      joined_itemWords (by omega), List.nil_append]
  have hexclusive : (Sequential.exclusive (· ++ ·) [Operand.seed] (itemWords length))[i]? =
      some (.seed :: (List.range i).map .item) := by
    rw [Sequential.getElem?_exclusive _ _ hlen, joined_itemWords (by omega)]
    rfl
  cases shape with
  | inclusive => exact hinclusive i hi
  | exclusive => exact hexclusive
  | unseeded =>
    have hpos := hpos rfl
    rw [ScanMethod.map, ScanMethod.sequential, getElem?_shiftUp none hpos, hinclusive _ (by omega),
      Nat.sub_add_cancel hpos]
    · rfl
    · simpa [itemWords] using hi
  | inclusiveBlocked => exact hinclusive i hi
  | exclusiveBlocked => exact hexclusive

/-! ## Evaluating -/

theorem map_eval_leafInput (op : α → α → α) (m : ScanMethod α) (input : List α) :
    (leafInput input.length).map (Combination.eval op (m.operand input)) = input.map some := by
  refine List.ext_getElem (by simp [leafInput]) fun i hi _ => ?_
  have hlt : i < input.length := by simpa [leafInput] using hi
  simp [leafInput, Combination.eval, ScanMethod.operand, hlt]

theorem eval_symbolic (s : ScanPlan) (op : α → α → α) (m : ScanMethod α) (input : List α) :
    (s.symbolic m.shape input.length).map (Combination.eval op (m.operand input)) =
      (s.run m op input).map some := by
  have hseed : (m.shape.map fun _ => Combination.leaf .seed).map
      (Combination.eval op (m.operand input)) = m.map some := by cases m <;> rfl
  rw [ScanPlan.symbolic, s.run_map (Combination.eval_node op _), hseed, map_eval_leafInput,
    s.run_map (some_eq_liftOp op)]

/-! ## One tree for every position -/

section
variable {s : ScanPlan} {shape : ScanMethod Unit} {items length : Nat}
  (h : s.Fits shape items length)
include h

theorem fits_itemWords :
    s.Fits (shape.map fun _ => [Operand.seed]) items (itemWords length).length := by
  rw [itemWords, List.length_map, List.length_range]
  exact h.map

/-- The tree of a position. -/
theorem exists_output {i : Nat} (hi : i < length) (hpos : shape = .unseeded → 0 < i) :
    ∃ tree, (s.symbolic shape length).output[i]? = some tree ∧
      tree.leaves = shape.operands i := by
  have hleaves := congrArg (fun r => r.output[i]?) (leaves_symbolic s shape length)
  rw [s.output_words (fits_itemWords h), sequential_operands shape hi hpos, Scanned.map,
    List.getElem?_map] at hleaves
  exact Option.map_eq_some_iff.1 hleaves

/-- The tree of the total. -/
theorem exists_total : ∃ tree, (s.symbolic shape length).total = some tree ∧
    tree.leaves = (List.range length).map .item := by
  have hall : (itemWords length).flatten = (List.range length).map .item := by
    rw [← joined_itemWords (Nat.le_refl _), joined_zero,
      List.take_of_length_le (by simp [itemWords])]
  have hleaves := congrArg Scanned.total (leaves_symbolic s shape length)
  rw [s.total_words (fits_itemWords h), Scanned.total_map, hall] at hleaves
  exact Option.map_eq_some_iff.1 hleaves

end

/-- **A scan keeps the order of its operands.** -/
theorem exists_combination (s : ScanPlan) (shape : ScanMethod Unit) {items : Nat}
    (hitems : 0 < items) (hflat : shape.isBlocked = false → items = 1) :
    (∃ total : Combination, total.leaves = (List.range (s.blockSize * items)).map .item ∧
      ∀ (α : Type) (op : α → α → α) (m : ScanMethod α) (input : List α),
        m.shape = shape → input.length = s.blockSize * items →
        ∃ r y, s.scan m op input input.length = .ok r ∧
          r.total = some y ∧ total.eval op (m.operand input) = some y) ∧
    ∀ i < s.blockSize * items, (shape = .unseeded → 0 < i) →
      ∃ tree : Combination, tree.leaves = shape.operands i ∧
        ∀ (α : Type) (op : α → α → α) (m : ScanMethod α) (input : List α),
          m.shape = shape → input.length = s.blockSize * items →
          ∃ r y, s.scan m op input input.length = .ok r ∧
            r.output[i]? = some y ∧ tree.eval op (m.operand input) = some y := by
  have hfits : s.Fits shape items (s.blockSize * items) := ⟨hitems, hflat, rfl⟩
  have hscan : ∀ (α : Type) (op : α → α → α) (m : ScanMethod α) (input : List α),
      m.shape = shape → input.length = s.blockSize * items →
      s.scan m op input input.length = .ok (s.run m op input) := by
    rintro α op m input rfl hlen
    have hm : s.Fits m items input.length :=
      ⟨hitems, fun hm => hflat (by rwa [ScanMethod.shape, ScanMethod.isBlocked_map]), hlen⟩
    exact hm.scan_ok op
  -- both trees are read off the symbolic scan, which knows the shape and the length only
  refine ⟨?_, fun i hi hpos => ?_⟩
  · obtain ⟨total, htotal, hleaves⟩ := exists_total hfits
    refine ⟨total, hleaves, fun α op m input hm hlen => ?_⟩
    have heval := congrArg Scanned.total (eval_symbolic s op m input)
    rw [hm, hlen, Scanned.total_map, htotal, Scanned.total_map, Option.map_some] at heval
    obtain ⟨y, hy, hsome⟩ := Option.map_eq_some_iff.1 heval.symm
    exact ⟨_, y, hscan α op m input hm hlen, hy, hsome.symm⟩
  · obtain ⟨tree, htree, hleaves⟩ := exists_output hfits hi hpos
    refine ⟨tree, hleaves, fun α op m input hm hlen => ?_⟩
    have heval := congrArg (fun r => r.output[i]?) (eval_symbolic s op m input)
    rw [hm, hlen, Scanned.map, List.getElem?_map, htree, Scanned.map, List.getElem?_map,
      Option.map_some] at heval
    obtain ⟨y, hy, hsome⟩ := Option.map_eq_some_iff.1 heval.symm
    exact ⟨_, y, hscan α op m input hm hlen, hy, hsome.symm⟩

/-- Eleven lanes in groups of eight. -/
def elevenLanes : ScanPlan := ⟨⟨.serial, 8, 3, rfl⟩, 11, by decide, by cbv⟩

theorem exists_combination_elevenLanes :
    ∃ tree : Combination, tree.leaves = [.seed, .item 0, .item 1, .item 2] ∧
      ∀ (α : Type) (op : α → α → α) (m : ScanMethod α) (input : List α),
        m.shape = .exclusiveBlocked () → input.length = elevenLanes.blockSize * 2 →
        ∃ r y, elevenLanes.scan m op input input.length = .ok r ∧
          r.output[3]? = some y ∧ tree.eval op (m.operand input) = some y :=
  (exists_combination elevenLanes (.exclusiveBlocked ()) Nat.two_pos nofun).2 3 (by decide) nofun

end LaneGrid
