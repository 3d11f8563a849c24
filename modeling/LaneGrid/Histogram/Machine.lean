import LaneGrid.Dispatch
import LaneGrid.Histogram.Request

/-!
# Machines

What calls run on. A call takes workers from its machine, which may not be had, and it counts
pixels, counters and blocks in numbers that have to be indices. Machines differ in what becomes of a
number that is too large for one.

* `Machine`: the workers that are there, how pools are made, and the arithmetic of indices.
  `Machine.index` gives the index that stands for a number, which is the number itself if that one
  fits (`Machine.index_eq_iff`).
* `Stop`: why an accepted call stops.
* `Walk`: what is done in order, up to the end or to where it stops. `Walk.each` walks through a
  list of walks.
* `Machine.launch`: runs a kernel on every block that has an index. In a grid whose blocks are no
  more than there are indices, these are all blocks (`Machine.launch_eq`).
-/

namespace LaneGrid

variable {α β γ : Type}

/-! ## Machines -/

/-- What becomes of a number that is too large for an index. -/
inductive Arithmetic where
  /-- It stays what it is, as if there were indices without end. -/
  | exact
  /-- Its remainder takes its place. -/
  | wrapping
  /-- The call stops. -/
  | checked
deriving DecidableEq

/-- What calls run on. -/
structure Machine where
  /-- The workers that are there. -/
  workers : Nat
  /-- Makes a pool of some workers, or says why it cannot. -/
  pool : Nat → Except String Unit
  arithmetic : Arithmetic

/-- Why an accepted call stops. -/
inductive Stop where
  | noPool (reason : String)
  /-- A number is too large for an index. -/
  | tooLarge (number : Nat)
  /-- A row should be cut into tiles without pixels. -/
  | emptyTile
  /-- A walk should go on in steps of nothing. -/
  | noStep
deriving DecidableEq

/-- The wording of a stop, if it has one of its own. -/
def Stop.message : Stop → Option String
  | .noPool reason => some ("failed to build thread pool: " ++ reason)
  | .tooLarge _ | .emptyTile | .noStep => none

namespace Machine

/-- One worker, and every pool that is asked for. -/
def single (arithmetic : Arithmetic) : Machine where
  workers := 1
  pool _ := .ok ()
  arithmetic

/-- Has the workers that a call asks for. -/
def start (m : Machine) (workers : Nat) : Except Stop Unit :=
  match (WorkerPlan.ofWorkers workers m.workers).pool with
  | none => .ok ()
  | some count =>
    match m.pool count with
    | .ok () => .ok ()
    | .error reason => .error (.noPool reason)

/-- The index that stands for a number. A sum, and a product of what is not zero, is no less than
any part of it, so that one look at the whole is also one at its parts. -/
def index (m : Machine) (number : Nat) : Except Stop Nat :=
  match m.arithmetic with
  | .exact => .ok number
  | .wrapping => .ok (number % addressLimit)
  | .checked => if number < addressLimit then .ok number else .error (.tooLarge number)

/-- A number is an index. -/
def Fits (m : Machine) (number : Nat) : Prop := m.arithmetic = .exact ∨ number < addressLimit

instance {m : Machine} {number : Nat} : Decidable (m.Fits number) :=
  inferInstanceAs (Decidable (_ ∨ _))

variable {m : Machine} {n n' : Nat}

theorem Fits.of_le (h : m.Fits n) (hle : n' ≤ n) : m.Fits n' :=
  h.imp_right (Nat.lt_of_le_of_lt hle)

/-- Just the numbers that fit stand for themselves. -/
theorem index_eq_iff : m.index n = .ok n ↔ m.Fits n := by
  unfold index Fits
  cases m.arithmetic with
  | exact => simp
  | wrapping =>
    simp only [Except.ok.injEq, reduceCtorEq, false_or]
    exact ⟨fun h => h ▸ Nat.mod_lt _ (by decide), Nat.mod_eq_of_lt⟩
  | checked => by_cases h : n < addressLimit <;> simp [h]

/-- No number stands for a smaller one. -/
theorem index_le (h : m.index n = .ok n') : n' ≤ n := by
  unfold index at h
  cases harithmetic : m.arithmetic with
  | exact =>
    rw [harithmetic] at h
    cases h
    exact Nat.le_refl n
  | wrapping =>
    rw [harithmetic] at h
    cases h
    exact Nat.mod_le n addressLimit
  | checked =>
    rw [harithmetic] at h
    dsimp only at h
    split at h
    · cases h
      exact Nat.le_refl n
    · cases h

end Machine

/-! ## Walks -/

/-- What is done in order, up to the end or to where it stops. -/
structure Walk (β : Type) where
  done : List β
  stop : Option Stop := none
deriving DecidableEq

namespace Walk

/-- Does all of a list. -/
def ofList (done : List β) : Walk β := { done }

/-- Stops before anything is done. -/
def stopped (stop : Stop) : Walk β := { done := [], stop }

/-- Goes on with a second walk, unless the first one stops. -/
def append (w w' : Walk β) : Walk β :=
  match w.stop with
  | none => ⟨w.done ++ w'.done, w'.stop⟩
  | some _ => w

/-- One walk after another, up to the first one that stops. -/
def each (l : List α) (f : α → Walk β) : Walk β :=
  l.foldr (fun a later => (f a).append later) (ofList [])

/-- Walks from `start` on in steps of `step`, below `stop`. -/
def strided (start stop step : Nat) (f : Nat → Walk β) : Walk β :=
  if step = 0 then stopped .noStep else each (LaneGrid.strided start stop step) f

/-- Does some things for each thing that is done. -/
def flatMap (w : Walk β) (f : β → List γ) : Walk γ := ⟨w.done.flatMap f, w.stop⟩

def map (w : Walk β) (f : β → γ) : Walk γ := ⟨w.done.map f, w.stop⟩

/-- What a walk has done at its end, if it gets there. -/
def finish (w : Walk β) : Except Stop (List β) :=
  match w.stop with
  | none => .ok w.done
  | some stop => .error stop

variable {l : List α} {f : α → Walk β}

@[simp] theorem each_nil : each [] f = ofList [] := rfl

@[simp] theorem each_cons (a : α) : each (a :: l) f = (f a).append (each l f) := rfl

@[simp] theorem append_ofList (done done' : List β) :
    (ofList done).append (ofList done') = ofList (done ++ done') := rfl

@[simp] theorem map_ofList (done : List β) (g : β → γ) :
    (ofList done).map g = ofList (done.map g) :=
  rfl

@[simp] theorem flatMap_ofList (done : List β) (g : β → List γ) :
    (ofList done).flatMap g = ofList (done.flatMap g) := rfl

@[simp] theorem finish_ofList (done : List β) : (ofList done).finish = .ok done := rfl

/-- A walk that does not stop does all of it. -/
theorem eq_ofList {w : Walk β} (h : w.stop = none) : w = ofList w.done := by
  cases w
  cases h
  rfl

/-- Walks that all get to their end are done one after another. -/
theorem each_ofList {g : α → List β} (h : ∀ a ∈ l, f a = ofList (g a)) :
    each l f = ofList (l.flatMap g) := by
  induction l with
  | nil => rfl
  | cons a l ih =>
    rw [each_cons, h a List.mem_cons_self, ih fun a ha => h a (List.mem_cons_of_mem _ ha),
      append_ofList, List.flatMap_cons]

theorem strided_ofList {start stop step : Nat} {f : Nat → Walk β} {g : Nat → List β}
    (hstep : 0 < step) (h : ∀ n ∈ LaneGrid.strided start stop step, f n = ofList (g n)) :
    strided start stop step f = ofList ((LaneGrid.strided start stop step).flatMap g) := by
  rw [strided, if_neg (Nat.ne_of_gt hstep), each_ofList h]

/-- Nothing is done but by one of the walks. -/
theorem mem_each {x : β} (h : x ∈ (each l f).done) : ∃ a ∈ l, x ∈ (f a).done := by
  induction l with
  | nil => cases h
  | cons a l ih =>
    rw [each_cons, append] at h
    split at h
    · rcases List.mem_append.1 h with h | h
      · exact ⟨a, List.mem_cons_self, h⟩
      · obtain ⟨a', ha', h⟩ := ih h
        exact ⟨a', List.mem_cons_of_mem _ ha', h⟩
    · exact ⟨a, List.mem_cons_self, h⟩

/-- A walk through all of a list gets to the end of each of its walks. -/
theorem stop_of_each (h : (each l f).stop = none) : ∀ a ∈ l, (f a).stop = none := by
  induction l with
  | nil => simp
  | cons a l ih =>
    rw [each_cons] at h
    unfold append at h
    split at h
    · rename_i hstop
      intro a' ha'
      rcases List.mem_cons.1 ha' with rfl | ha'
      · exact hstop
      · exact ih h a' ha'
    · rename_i hstop
      rw [hstop] at h
      cases h

/-- A walk through all of a list does what each of its walks does. -/
theorem done_each (h : (each l f).stop = none) :
    (each l f).done = l.flatMap fun a => (f a).done := by
  induction l with
  | nil => rfl
  | cons a l ih =>
    rw [each_cons] at h ⊢
    unfold append at h ⊢
    split at h
    · rw [List.flatMap_cons, ← ih h]
    · rename_i hstop
      rw [hstop] at h
      cases h

end Walk

/-! ## Launches -/

/-- The blocks of a grid with the numbers below `count`, of `lanes` lanes each. -/
def Grid.numbered (g : Grid) (count lanes : Nat) : List Block :=
  if lanes = 0 then []
  else (List.range count).map fun flat => { index := g.index flat, grid := g, size := lanes }

theorem Grid.numbered_sublist (g : Grid) {count count' : Nat} (h : count ≤ count') (lanes : Nat) :
    (g.numbered count lanes).Sublist (g.numbered count' lanes) := by
  unfold numbered
  split
  · exact List.Sublist.refl _
  · exact (List.range_sublist.2 h).map _

namespace Machine

variable {m : Machine} {n : Nat}

/-- Goes on with the index that stands for a number. -/
def withIndex (m : Machine) (number : Nat) (f : Nat → Walk β) : Walk β :=
  match m.index number with
  | .ok index => f index
  | .error stop => .stopped stop

theorem withIndex_of_fits (h : m.Fits n) (f : Nat → Walk β) : m.withIndex n f = f n := by
  rw [withIndex, index_eq_iff.2 h]

/-- The blocks of a launch: those with a number below the index that stands for how many there
are. -/
def blocks (m : Machine) (g : Grid) (lanes : Nat) : Except Stop (List Block) :=
  (g.numbered · lanes) <$> m.index g.size

theorem blocks_of_fits {g : Grid} (h : m.Fits g.size) (lanes : Nat) :
    m.blocks g lanes = .ok (g.blocks lanes) := by
  rw [blocks, index_eq_iff.2 h]
  rfl

/-- Runs a kernel on the blocks of a launch, one after another. -/
def launch (m : Machine) (g : Grid) (lanes : Nat) (kernel : Block → Walk β) : Walk β :=
  match m.blocks g lanes with
  | .ok blocks => .each blocks kernel
  | .error stop => .stopped stop

/-- Every block of a launch is a block of its grid. -/
theorem mem_launch {g : Grid} {lanes : Nat} {kernel : Block → Walk β} {a : β}
    (h : a ∈ (m.launch g lanes kernel).done) : ∃ b ∈ g.blocks lanes, a ∈ (kernel b).done := by
  unfold launch blocks at h
  cases hindex : m.index g.size with
  | error stop =>
    rw [hindex] at h
    cases h
  | ok count =>
    rw [hindex] at h
    obtain ⟨b, hb, h⟩ := Walk.mem_each h
    exact ⟨b, (g.numbered_sublist (index_le hindex) lanes).subset hb, h⟩

/-- A launch of a grid whose blocks have indices runs all of them. -/
theorem launch_eq {g : Grid} (h : m.Fits g.size) (lanes : Nat) (kernel : Block → Walk β) :
    m.launch g lanes kernel = .each (g.blocks lanes) kernel := by
  rw [launch, blocks_of_fits h]

end Machine

end LaneGrid
