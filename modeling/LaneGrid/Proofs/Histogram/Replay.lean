import Mathlib
import LaneGrid.Histogram.Counters

/-!
# What operations leave in one counter

Operations on other counters do not reach a counter (`cell_apply`), so that a list of them can be
read counter by counter.

* `CounterOp.amount`, `added`: what an operation, and a list of them, adds to a counter. It is
  additive over lists (`added_append`, `added_flatMap`).
* `cell_replay_adds`: after operations that add, a counter has grown by `added`, modulo the width of
  its kind.
* `cell_replay_resets`: after operations that set to zero, a counter is zero if one was on it.
* `opsOn`: the operations on one counter, which are all that is added to it (`added_opsOn`).
-/

namespace LaneGrid

variable {k : IntKind}

/-! ## Words -/

namespace Word

theorem ofInt_natCast (n : Nat) : (ofInt n : Word k) = ⟨BitVec.ofNat k.bits n⟩ := by
  rw [ofInt, BitVec.ofInt_natCast]

theorem ofInt_natCast_eq_zero {n : Nat} : (ofInt n : Word k) = zero ↔ n % 2 ^ k.bits = 0 := by
  rw [ofInt_natCast, zero, Word.mk.injEq, ← BitVec.toNat_inj, BitVec.toNat_ofNat,
    BitVec.toNat_ofNat,
    Nat.zero_mod]

/-- Two counts give the same word exactly when they agree modulo the width. -/
theorem ofInt_natCast_inj {a b : Nat} :
    (ofInt a : Word k) = ofInt b ↔ a % 2 ^ k.bits = b % 2 ^ k.bits := by
  rw [ofInt_natCast, ofInt_natCast, Word.mk.injEq, ← BitVec.toNat_inj, BitVec.toNat_ofNat,
    BitVec.toNat_ofNat]

theorem add_add_ofInt (w : Word k) (a b : Nat) :
    (w.add (ofInt a)).add (ofInt b) = w.add (ofInt (a + b : Nat)) := by
  simp only [ofInt_natCast, add, BitVec.ofNat_add, BitVec.add_assoc]

@[simp] theorem add_ofInt_zero (w : Word k) : w.add (ofInt 0) = w := by
  simp [ofInt, add]

@[simp] theorem zero_add_ofInt (n : Nat) : (zero : Word k).add (ofInt n) = ofInt n := by
  simp [ofInt_natCast, add, zero]

/-- A count is added by its number. -/
theorem addCount_eq (w : Word k) (count : Word .u32) :
    w.addCount count = w.add (ofInt count.bits.toNat) := by
  rw [addCount, ofInt_natCast, recast, BitVec.ofNat_toNat]

end Word

/-! ## One operation -/

/-- A counter of a channel, if there is one. -/
def Counters.cell (counters : Counters k) (channel bin : Nat) : Option (Word k) :=
  counters[channel]?.bind (·[bin]?)

theorem exists_cell_of_lt {counters : Counters k} {channel bin : Nat} {bins : Array (Word k)}
    (h : counters[channel]? = some bins) (hlt : bin < bins.size) :
    ∃ w, counters.cell channel bin = some w := by
  rw [Counters.cell, h, Option.bind_some]
  exact ⟨_, Array.getElem?_eq_getElem hlt⟩

/-- Two memories hold the same in a channel if every counter of it is the same. -/
theorem getElem?_of_cell {a b : Counters k} {channel : Nat}
    (hlt : channel < a.size ↔ channel < b.size)
    (h : ∀ bin, a.cell channel bin = b.cell channel bin) : a[channel]? = b[channel]? := by
  by_cases ha : channel < a.size
  · have hb := hlt.1 ha
    rw [Array.getElem?_eq_getElem ha, Array.getElem?_eq_getElem hb]
    refine congrArg some (Array.ext_getElem? fun bin => ?_)
    have hcell := h bin
    rwa [Counters.cell, Counters.cell, Array.getElem?_eq_getElem ha, Array.getElem?_eq_getElem hb,
      Option.bind_some, Option.bind_some] at hcell
  · have hb : ¬channel < b.size := fun hb => ha (hlt.2 hb)
    rw [Array.getElem?_eq_none (Nat.le_of_not_lt ha), Array.getElem?_eq_none (Nat.le_of_not_lt hb)]

theorem counters_ext {a b : Counters k} (hsize : a.size = b.size)
    (h : ∀ channel bin, a.cell channel bin = b.cell channel bin) : a = b :=
  Array.ext_getElem? fun channel => getElem?_of_cell (by rw [hsize]) (h channel)

namespace CounterOp

/-- What the operation adds to a counter. -/
def amount (channel bin : Nat) : CounterOp → Nat
  | .reset _ _ => 0
  | .add c j count => if c = channel ∧ j = bin then count.bits.toNat else 0

/-- An operation changes the counter it is on, and no other. -/
theorem cell_apply (op : CounterOp) (counters : Counters k) (channel bin : Nat) :
    (op.apply counters).cell channel bin =
      (counters.cell channel bin).map
        fun w => if op.channel = channel ∧ op.bin = bin then op.update w else w := by
  unfold apply Counters.cell
  rw [Array.getElem?_modify]
  by_cases hc : op.channel = channel
  · rw [if_pos hc]
    cases counters[channel]? with
    | none => rfl
    | some bins =>
      simp only [Option.map_some, Option.bind_some, Array.getElem?_modify]
      by_cases hj : op.bin = bin
      · rw [if_pos hj]
        simp [hc, hj]
      · rw [if_neg hj]
        simp [hj]
  · rw [if_neg hc]
    simp [hc]

end CounterOp

/-! ## Lists of operations -/

/-- What operations add to a counter, all together. -/
def added (ops : List CounterOp) (channel bin : Nat) : Nat := (ops.map (·.amount channel bin)).sum

@[simp] theorem added_nil (channel bin : Nat) : added [] channel bin = 0 := rfl

@[simp] theorem added_cons (op : CounterOp) (ops : List CounterOp) (channel bin : Nat) :
    added (op :: ops) channel bin = op.amount channel bin + added ops channel bin := by
  simp [added]

@[simp] theorem added_append (ops ops' : List CounterOp) (channel bin : Nat) :
    added (ops ++ ops') channel bin = added ops channel bin + added ops' channel bin := by
  simp [added]

theorem added_flatMap {β : Type} (l : List β) (f : β → List CounterOp) (channel bin : Nat) :
    added (l.flatMap f) channel bin = (l.map fun b => added (f b) channel bin).sum := by
  induction l with
  | nil => rfl
  | cons b l ih => rw [List.flatMap_cons, added_append, ih, List.map_cons, List.sum_cons]

/-- The operations on one counter, in order. -/
def opsOn (ops : List CounterOp) (channel bin : Nat) : List CounterOp :=
  ops.filter fun op => op.channel = channel ∧ op.bin = bin

theorem opsOn_append (ops ops' : List CounterOp) (channel bin : Nat) :
    opsOn (ops ++ ops') channel bin = opsOn ops channel bin ++ opsOn ops' channel bin :=
  List.filter_append ..

theorem opsOn_flatMap {β : Type} (l : List β) (f : β → List CounterOp) (channel bin : Nat) :
    opsOn (l.flatMap f) channel bin = l.flatMap fun b => opsOn (f b) channel bin :=
  List.filter_flatMap

theorem opsOn_perm {ops ops' : List CounterOp} (h : ops.Perm ops') (channel bin : Nat) :
    (opsOn ops channel bin).Perm (opsOn ops' channel bin) :=
  h.filter _

/-- Operations on other counters add nothing. -/
theorem added_opsOn (ops : List CounterOp) (channel bin : Nat) :
    added (opsOn ops channel bin) channel bin = added ops channel bin := by
  induction ops with
  | nil => rfl
  | cons op ops ih =>
    rw [added_cons, ← ih, opsOn, List.filter_cons]
    split
    · rw [added_cons, opsOn]
    · rename_i hoff
      have hamount : op.amount channel bin = 0 := by
        cases op with
        | reset => rfl
        | add c j count => exact if_neg fun h => hoff (decide_eq_true h)
      rw [hamount, Nat.zero_add, opsOn]

theorem map_size_apply (op : CounterOp) (counters : Counters k) :
    (op.apply counters).map (·.size) = counters.map (·.size) := by
  apply Array.ext_getElem?
  intro channel
  rw [Array.getElem?_map, Array.getElem?_map, CounterOp.apply, Array.getElem?_modify]
  split
  · cases counters[channel]? <;> simp
  · rfl

theorem map_size_replay (ops : List CounterOp) (counters : Counters k) :
    (replay ops counters).map (·.size) = counters.map (·.size) := by
  induction ops generalizing counters with
  | nil => rfl
  | cons op ops ih => rw [replay_cons, ih, map_size_apply]

/-- Operations on other counters leave a counter as it is. -/
theorem cell_replay_of_forall_ne {ops : List CounterOp} {channel bin : Nat}
    (h : ∀ op ∈ ops, ¬(op.channel = channel ∧ op.bin = bin)) (counters : Counters k) :
    (replay ops counters).cell channel bin = counters.cell channel bin := by
  induction ops generalizing counters with
  | nil => rfl
  | cons op ops ih =>
    rw [replay_cons, ih fun op hop => h op (List.mem_cons_of_mem _ hop), CounterOp.cell_apply]
    simp [h op List.mem_cons_self]

theorem cell_replay_adds {ops : List CounterOp} (h : ∀ op ∈ ops, ∃ c j n, op = .add c j n)
    (counters : Counters k) (channel bin : Nat) :
    (replay ops counters).cell channel bin =
      (counters.cell channel bin).map (·.add (.ofInt (added ops channel bin))) := by
  induction ops generalizing counters with
  | nil => simp
  | cons op ops ih =>
    obtain ⟨c, j, n, rfl⟩ := h op List.mem_cons_self
    rw [replay_cons, ih fun op hop => h op (List.mem_cons_of_mem _ hop), CounterOp.cell_apply,
      Option.map_map]
    congr 1
    funext w
    simp only [Function.comp_apply, CounterOp.channel, CounterOp.bin, CounterOp.update, added_cons,
      CounterOp.amount, Word.addCount_eq]
    split
    · rw [Word.add_add_ofInt]
    · rw [Nat.zero_add]

theorem cell_replay_resets {ops : List CounterOp} (h : ∀ op ∈ ops, ∃ c j, op = .reset c j)
    (counters : Counters k) (channel bin : Nat) :
    (replay ops counters).cell channel bin =
      (counters.cell channel bin).map
        fun w => if .reset channel bin ∈ ops then .zero else w := by
  induction ops generalizing counters with
  | nil => simp
  | cons op ops ih =>
    obtain ⟨c, j, rfl⟩ := h op List.mem_cons_self
    rw [replay_cons, ih fun op hop => h op (List.mem_cons_of_mem _ hop), CounterOp.cell_apply,
      Option.map_map]
    congr 1
    funext w
    simp only [Function.comp_apply, CounterOp.channel, CounterOp.bin, CounterOp.update,
      List.mem_cons, CounterOp.reset.injEq]
    by_cases hon : c = channel ∧ j = bin
    · obtain ⟨rfl, rfl⟩ := hon
      simp
    · have hon' : ¬(channel = c ∧ bin = j) := fun ⟨hc, hj⟩ => hon ⟨hc.symm, hj.symm⟩
      simp only [hon, hon', false_or, if_false]

end LaneGrid
