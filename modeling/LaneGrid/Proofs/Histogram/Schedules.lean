import LaneGrid.Proofs.Histogram.MachineCall
import LaneGrid.Proofs.Histogram.Counts

/-!
# Blocks in any order

The blocks of a launch run at the same time, and each carries out operations of its own on the
counters that all of them share.

* `LaunchRun`: a launch from start to finish, as a trace of which block carried out which operation.
  At every moment any block that is not finished may be the next.
* `launchRun_iff`: the finished runs are the traces that keep every block's own order
  (`Interleaves`). What a block carries out depends neither on the counters nor on other blocks.
* Operations of one kind commute (`CounterOp.apply_comm`), and a launch has operations of one kind
  only, so that the order is lost in the result (`launchRun_eq`). An operation that sets a counter
  to zero does not commute with one that adds: a counting call finishes the first launch before it
  starts the second (`LaunchesRun`).

`schedules_agree`: every run of a launch, and every run of a counting call, leaves what the blocks
leave one after another in their numbering, whatever the workers.
-/

namespace LaneGrid

variable {σ ℓ β : Type} {k : IntKind}

/-! ## Traces -/

/-- What one task did in a trace, in order. -/
def track (task : Nat) (trace : List (Nat × β)) : List β :=
  trace.filterMap fun (i, a) => if i = task then some a else none

/-- The trace is made of what the tasks do, each in its own order. -/
def Interleaves (tasks : List (List β)) (trace : List (Nat × β)) : Prop :=
  ∀ i, track i trace = tasks[i]?.getD []

theorem track_cons_self (i : Nat) (a : β) (trace : List (Nat × β)) :
    track i ((i, a) :: trace) = a :: track i trace := by
  simp [track]

theorem track_cons_of_ne {i j : Nat} (h : i ≠ j) (a : β) (trace : List (Nat × β)) :
    track j ((i, a) :: trace) = track j trace := by
  simp [track, h]

theorem interleaves_nil {tasks : List (List β)} :
    Interleaves tasks [] ↔ ∀ task ∈ tasks, task = [] := by
  constructor
  · intro h task hmem
    obtain ⟨i, hi⟩ := List.mem_iff_getElem?.1 hmem
    have htask := h i
    rw [hi] at htask
    exact htask.symm
  · intro h i
    cases hi : tasks[i]? with
    | none => rfl
    | some task => exact (h task (List.mem_of_getElem? hi)).symm

theorem interleaves_cons {tasks : List (List β)} {i : Nat} {a : β} {trace : List (Nat × β)} :
    Interleaves tasks ((i, a) :: trace) ↔
      ∃ rest, tasks[i]? = some (a :: rest) ∧ Interleaves (tasks.set i rest) trace := by
  constructor
  · intro h
    have hi := h i
    rw [track_cons_self] at hi
    cases htask : tasks[i]? with
    | none =>
      rw [htask] at hi
      cases hi
    | some task =>
      rw [htask, Option.getD_some] at hi
      refine ⟨track i trace, by rw [hi], ?_⟩
      intro j
      rw [List.getElem?_set]
      by_cases hij : i = j
      · subst hij
        obtain ⟨hlt, -⟩ := List.getElem?_eq_some_iff.1 htask
        simp [hlt]
      · rw [if_neg hij, ← h j, track_cons_of_ne hij]
  · rintro ⟨rest, htask, h⟩ j
    have hj := h j
    rw [List.getElem?_set] at hj
    by_cases hij : i = j
    · subst hij
      obtain ⟨hlt, -⟩ := List.getElem?_eq_some_iff.1 htask
      rw [if_pos rfl, if_pos hlt, Option.getD_some] at hj
      rw [track_cons_self, hj, htask, Option.getD_some]
    · rw [if_neg hij] at hj
      rw [track_cons_of_ne hij, hj]

theorem cons_flatten_set_perm : ∀ {tasks : List (List β)} {i : Nat} {a : β} {rest : List β},
    tasks[i]? = some (a :: rest) → (a :: (tasks.set i rest).flatten).Perm tasks.flatten
  | [], _, _, _, h => by simp at h
  | task :: tasks, 0, a, rest, h => by
    cases h
    exact .refl _
  | task :: tasks, i + 1, a, rest, h => by
    have hset : tasks[i]? = some (a :: rest) := h
    have ih := (cons_flatten_set_perm hset).append_left task
    rw [List.set_cons_succ, List.flatten_cons, List.flatten_cons]
    exact List.perm_middle.symm.trans ih

/-- Interleaving puts the same operations in another order. -/
theorem Interleaves.perm {tasks : List (List β)} {trace : List (Nat × β)}
    (h : Interleaves tasks trace) : (trace.map (·.2)).Perm tasks.flatten := by
  induction trace generalizing tasks with
  | nil =>
    rw [List.flatten_eq_nil_iff.2 (interleaves_nil.1 h)]
    exact .refl _
  | cons event trace ih =>
    obtain ⟨rest, htask, h⟩ := interleaves_cons.1 h
    exact ((ih h).cons event.2).trans (cons_flatten_set_perm htask)

/-- Tasks can always be brought to an end. -/
theorem exists_interleaves (tasks : List (List β)) : ∃ trace, Interleaves tasks trace := by
  induction hcount : tasks.flatten.length generalizing tasks with
  | zero =>
    exact ⟨[], interleaves_nil.2 (List.flatten_eq_nil_iff.1 (List.length_eq_zero_iff.1 hcount))⟩
  | succ count ih =>
    have hne : ¬∀ task ∈ tasks, task = [] := by
      intro h
      rw [List.flatten_eq_nil_iff.2 h] at hcount
      cases hcount
    simp only [not_forall] at hne
    obtain ⟨task, hmem, hne⟩ := hne
    obtain ⟨a, rest, rfl⟩ := List.exists_cons_of_ne_nil hne
    obtain ⟨i, hi⟩ := List.mem_iff_getElem?.1 hmem
    have hlen := (cons_flatten_set_perm hi).length_eq
    obtain ⟨trace, h⟩ := ih (tasks.set i rest) (by rw [List.length_cons] at hlen; omega)
    exact ⟨(i, a) :: trace, interleaves_cons.2 ⟨rest, hi, h⟩⟩

/-! ## Operations of one kind -/

def CounterOp.isReset : CounterOp → Bool
  | .reset _ _ => true
  | .add _ _ _ => false

theorem Word.addCount_comm (w : Word k) (a b : Word .u32) :
    (w.addCount a).addCount b = (w.addCount b).addCount a := by
  simp only [addCount, add, BitVec.add_assoc, BitVec.add_comm (a.recast k).bits]

/-- Two operations that set to zero, or two that add, may change places. -/
theorem CounterOp.apply_comm {a b : CounterOp} (h : a.isReset = b.isReset)
    (counters : Counters k) : a.apply (b.apply counters) = b.apply (a.apply counters) := by
  refine counters_ext (by simp [apply]) ?_
  intro channel bin
  simp only [cell_apply, Option.map_map]
  congr 1
  funext w
  simp only [Function.comp_apply]
  -- only on one counter do the two meet
  split <;> split <;> try rfl
  cases a with
  | reset => cases b with
    | reset => rfl
    | add => cases h
  | add _ _ n => cases b with
    | reset => cases h
    | add _ _ m => exact Word.addCount_comm w m n

example : replay [.reset 0 0, .add 0 0 (.ofInt 1)] (#[#[.zero]] : Counters .u32) ≠
    replay [.add 0 0 (.ofInt 1), .reset 0 0] #[#[.zero]] := by
  decide

/-- Operations of one kind may be carried out in any order. -/
theorem replay_perm {ops ops' : List CounterOp} (hperm : ops.Perm ops')
    (hkind : ∀ a ∈ ops, ∀ b ∈ ops, a.isReset = b.isReset) (counters : Counters k) :
    replay ops counters = replay ops' counters := by
  refine hperm.foldl_eq' ?_ counters
  intro a ha b hb counters
  exact CounterOp.apply_comm (hkind b hb a ha) counters

/-! ## Launches -/

/-- A launch under way, with what every block has left to do: to its end, some block carries out its
next operation at every step. -/
inductive LaunchRun : List (List CounterOp) → Counters k → List (Nat × CounterOp) →
    Counters k → Prop
  | finished {tasks : List (List CounterOp)} {counters : Counters k} :
      (∀ task ∈ tasks, task = []) → LaunchRun tasks counters [] counters
  | operate {tasks : List (List CounterOp)} {counters counters' : Counters k} {i : Nat}
      {op : CounterOp} {rest : List CounterOp} {trace : List (Nat × CounterOp)} :
      tasks[i]? = some (op :: rest) →
      LaunchRun (tasks.set i rest) (op.apply counters) trace counters' →
      LaunchRun tasks counters ((i, op) :: trace) counters'

/-- Launches one after another, each started when the one before is finished. -/
inductive LaunchesRun : List (List (List CounterOp)) → Counters k → Counters k → Prop
  | none {counters : Counters k} : LaunchesRun [] counters counters
  | launch {tasks : List (List CounterOp)} {later : List (List (List CounterOp))}
      {trace : List (Nat × CounterOp)} {counters counters' counters'' : Counters k} :
      LaunchRun tasks counters trace counters' → LaunchesRun later counters' counters'' →
      LaunchesRun (tasks :: later) counters counters''

/-- **The finished runs of a launch** are the traces that keep every block's order. -/
theorem launchRun_iff {tasks : List (List CounterOp)} {counters counters' : Counters k}
    {trace : List (Nat × CounterOp)} : LaunchRun tasks counters trace counters' ↔
      Interleaves tasks trace ∧ counters' = replay (trace.map (·.2)) counters := by
  constructor
  · intro h
    induction h with
    | finished h => exact ⟨interleaves_nil.2 h, rfl⟩
    | operate htask _ ih => exact ⟨interleaves_cons.2 ⟨_, htask, ih.1⟩, ih.2⟩
  · rintro ⟨h, rfl⟩
    induction trace generalizing tasks counters with
    | nil => exact .finished (interleaves_nil.1 h)
    | cons event trace ih =>
      obtain ⟨rest, htask, h⟩ := interleaves_cons.1 h
      exact .operate htask (ih h)

/-- A launch with operations of one kind leaves what its blocks leave one after another. -/
theorem launchRun_eq {tasks : List (List CounterOp)} {counters counters' : Counters k}
    {trace : List (Nat × CounterOp)} {ops : List CounterOp} (hperm : tasks.flatten.Perm ops)
    (hkind : ∀ a ∈ ops, ∀ b ∈ ops, a.isReset = b.isReset) :
    LaunchRun tasks counters trace counters' ↔
      Interleaves tasks trace ∧ counters' = replay ops counters := by
  rw [launchRun_iff]
  refine and_congr_right fun h => ?_
  rw [replay_perm (h.perm.trans hperm).symm hkind]

theorem launchesRun_nil {counters counters' : Counters k} :
    LaunchesRun [] counters counters' ↔ counters' = counters := by
  constructor
  · intro h
    cases h
    rfl
  · rintro rfl
    exact .none

theorem launchesRun_cons {tasks : List (List CounterOp)} {later : List (List (List CounterOp))}
    {counters counters'' : Counters k} : LaunchesRun (tasks :: later) counters counters'' ↔
      ∃ counters', (∃ trace, LaunchRun tasks counters trace counters') ∧
        LaunchesRun later counters' counters'' := by
  constructor
  · intro h
    cases h with
    | launch h hlater => exact ⟨_, ⟨_, h⟩, hlater⟩
  · rintro ⟨_, ⟨_, h⟩, hlater⟩
    exact .launch h hlater

/-- What every block has to do. -/
def tasks (blocks : List Block) (kernel : Block → Walk CounterOp) : List (List CounterOp) :=
  blocks.map (kernel · |>.done)

/-- Blocks that workers share out among them, each running its own one after another. -/
theorem flatten_workers_perm {blocks : List Block} {workers : List (List Block)}
    (h : workers.flatten.Perm blocks) (kernel : Block → Walk CounterOp) :
    (workers.map (·.flatMap (kernel · |>.done))).flatten.Perm (tasks blocks kernel).flatten := by
  have hops := h.flatMap_right fun b => (kernel b).done
  rw [List.flatMap_def, List.map_flatten] at hops
  rw [tasks, ← List.flatMap_def]
  simpa [List.flatMap_def, List.flatten_flatten, Function.comp_def] using hops

/-- The blocks of a launch, if they have numbers. -/
def Machine.launched (m : Machine) (g : Grid) (lanes : Nat) : List Block :=
  match m.blocks g lanes with
  | .ok blocks => blocks
  | .error _ => []

/-- A launch that does not stop does what its blocks do one after another. -/
theorem Machine.done_launch {m : Machine} {g : Grid} {lanes : Nat}
    {kernel : Block → Walk CounterOp} (h : (m.launch g lanes kernel).stop = none) :
    (m.launch g lanes kernel).done = (tasks (m.launched g lanes) kernel).flatten := by
  unfold launch at h ⊢
  unfold launched
  cases hblocks : m.blocks g lanes with
  | error stop =>
    rw [hblocks] at h
    cases h
  | ok blocks =>
    rw [hblocks] at h
    exact (Walk.done_each h).trans List.flatMap_def

namespace Pass

variable {p : Pass σ} {m : Machine}

/-- The three kernels of a pass. -/
def kernelsOn (p : Pass σ) (m : Machine) : List (Block → Walk CounterOp) :=
  [p.zeroOn m, p.privatizedOn m, p.globalOn m]

/-- The launches of a counting call: one that sets to zero, and one that counts what there is. -/
def launchesOn (p : Pass σ) (m : Machine) (c : Config) : List (List (List CounterOp)) :=
  let s := c.strategy p.totalBins
  tasks (m.launched (c.zeroGrid p.maxBins) c.blockSize) (p.zeroOn m) ::
    if p.region.isEmpty then []
    else
      match m.blocksX c p.region.columns with
      | .ok blocksX =>
        [tasks (m.launched (c.gridOf blocksX p.region.rows s) c.blockSize) (p.kernelOn m s)]
      | .error _ => []

theorem zeroOn_resets {b : Block} {op : CounterOp} (h : op ∈ (p.zeroOn m b).done) :
    op.isReset = true := by
  obtain ⟨_, _, -, _, -, rfl⟩ := mem_zeroOn h
  rfl

theorem kernelOn_not_reset {s : Strategy} {b : Block} {op : CounterOp}
    (h : op ∈ (p.kernelOn m s b).done) : op.isReset = false := by
  obtain ⟨_, _, -, _, -, _, rfl⟩ := mem_kernelOn h
  rfl

/-- All blocks of a launch carry out operations of one kind. -/
theorem isReset_eq {kernel : Block → Walk CounterOp} (hkernel : kernel ∈ p.kernelsOn m)
    (blocks : List Block) :
    ∀ a ∈ (tasks blocks kernel).flatten, ∀ b ∈ (tasks blocks kernel).flatten,
      a.isReset = b.isReset := by
  intro a ha b hb
  rw [tasks, ← List.flatMap_def] at ha hb
  obtain ⟨_, -, ha⟩ := List.mem_flatMap.1 ha
  obtain ⟨_, -, hb⟩ := List.mem_flatMap.1 hb
  simp only [kernelsOn, List.mem_cons, List.not_mem_nil, or_false] at hkernel
  rcases hkernel with rfl | rfl | rfl
  · rw [zeroOn_resets ha, zeroOn_resets hb]
  · rw [kernelOn_not_reset (s := .privatized) ha, kernelOn_not_reset (s := .privatized) hb]
  · rw [kernelOn_not_reset (s := .global) ha, kernelOn_not_reset (s := .global) hb]

theorem kernelOn_mem (p : Pass σ) (m : Machine) (s : Strategy) :
    p.kernelOn m s ∈ p.kernelsOn m := by
  cases s <;> simp [kernelsOn, kernelOn]

/-- A launch of one kernel can be run, and leaves what its blocks leave one after another. -/
theorem exists_launchRun_iff {kernel : Block → Walk CounterOp} (hkernel : kernel ∈ p.kernelsOn m)
    {blocks : List Block} {counters counters' : Counters k} :
    (∃ trace, LaunchRun (tasks blocks kernel) counters trace counters') ↔
      counters' = replay (tasks blocks kernel).flatten counters := by
  have hrun : ∀ trace, LaunchRun (tasks blocks kernel) counters trace counters' ↔
      Interleaves (tasks blocks kernel) trace ∧
        counters' = replay (tasks blocks kernel).flatten counters := by
    intro trace
    exact launchRun_eq (.refl _) (isReset_eq hkernel blocks)
  constructor
  · rintro ⟨trace, h⟩
    exact ((hrun trace).1 h).2
  · intro h
    obtain ⟨trace, htrace⟩ := exists_interleaves (tasks blocks kernel)
    exact ⟨trace, (hrun trace).2 ⟨htrace, h⟩⟩

/-- The launches of a counting call leave what their blocks leave one after another. -/
theorem launchesRun_iff {c : Config} {counters counters' : Counters k} :
    LaunchesRun (p.launchesOn m c) counters counters' ↔
      counters' = replay (p.launchesOn m c).flatten.flatten counters := by
  have hzero : p.zeroOn m ∈ p.kernelsOn m := List.mem_cons_self
  unfold launchesOn
  dsimp only
  rw [launchesRun_cons, List.flatten_cons, List.flatten_append, replay_append]
  simp only [exists_launchRun_iff hzero, exists_eq_left]
  split
  · rw [launchesRun_nil]
    rfl
  split
  · rw [launchesRun_cons]
    simp only [exists_launchRun_iff (kernelOn_mem p m _), exists_eq_left, launchesRun_nil]
    simp
  · rw [launchesRun_nil]
    rfl

/-- A second launch that does not stop carries out what its blocks have to do. -/
theorem done_countingOn {c : Config} {blocksX : Nat} (h : (p.countingOn m c blocksX).stop = none) :
    (p.countingOn m c blocksX).done =
      (if p.region.isEmpty then [] else
        (tasks (m.launched (c.gridOf blocksX p.region.rows (c.strategy p.totalBins)) c.blockSize)
          (p.kernelOn m (c.strategy p.totalBins)))).flatten := by
  unfold countingOn at h ⊢
  dsimp only at h ⊢
  cases hempty : p.region.isEmpty with
  | true => rfl
  | false =>
  rw [hempty, if_neg Bool.false_ne_true] at h
  rw [if_neg Bool.false_ne_true, if_neg Bool.false_ne_true]
  cases hsize : m.launchSize c (c.gridOf blocksX p.region.rows (c.strategy p.totalBins))
    (c.strategy p.totalBins) with
  | error stop =>
    rw [hsize] at h
    cases h
  | ok size =>
    rw [hsize] at h
    exact Machine.done_launch h

/-- A counting call that does not stop carries out the operations of its launches. -/
theorem done_countOn {c : Config} (h : (p.countOn m c).run.stop = none) :
    (p.countOn m c).run.done = (p.launchesOn m c).flatten.flatten := by
  obtain ⟨blocksX, hx, hzero, hcounting, hdone⟩ := exists_of_stop_countOn h
  unfold launchesOn
  rw [hdone, Machine.done_launch hzero, done_countingOn hcounting, hx]
  cases p.region.isEmpty <;> simp

end Pass

/-! ## Every schedule -/

/-- **Every schedule leaves the same counters**: a launch does, of whatever blocks and in whatever
order their operations follow each other, and so does a counting call that is not stopped. -/
theorem schedules_agree :
    (∀ (p : Pass σ) (m : Machine), ∀ kernel ∈ p.kernelsOn m, ∀ (blocks : List Block)
      (counters counters' : Counters k) (trace : List (Nat × CounterOp)),
        LaunchRun (tasks blocks kernel) counters trace counters' ↔
          Interleaves (tasks blocks kernel) trace ∧
            counters' = replay (tasks blocks kernel).flatten counters) ∧
    (∀ (p : Pass σ) (m : Machine), ∀ kernel ∈ p.kernelsOn m, ∀ (blocks : List Block)
      (workers : List (List Block)), workers.flatten.Perm blocks →
        ∀ (counters counters' : Counters k) (trace : List (Nat × CounterOp)),
          LaunchRun (workers.map (·.flatMap (kernel · |>.done))) counters trace counters' →
            counters' = replay (tasks blocks kernel).flatten counters) ∧
    ∀ [Level ℓ] (memory : Memory k) (m : Machine) (c : Config) (format : SampleFormat σ ℓ)
      (r : Request σ ℓ) (active : Nat) (region : Region) (mappers : List (Mapper σ)),
      r.accept format (memory.sizes active) = .ok (.counting region mappers) →
        (memory.callOn m c format r active).2.result = .ok () →
          ∀ counters',
            LaunchesRun ((r.pass c region mappers).launchesOn m c) memory.counters counters' ↔
              counters' = (memory.callOn m c format r active).1.counters := by
  refine ⟨?_, ?_, ?_⟩
  · intro p m kernel hkernel blocks counters counters' trace
    exact launchRun_eq (.refl _) (Pass.isReset_eq hkernel blocks)
  · intro p m kernel hkernel blocks workers hworkers counters counters' trace h
    have hperm := flatten_workers_perm hworkers kernel
    exact ((launchRun_eq hperm (Pass.isReset_eq hkernel blocks)).1 h).2
  · intro _ memory m c format r active region mappers haccept hok counters'
    unfold Memory.callOn at hok ⊢
    rw [haccept] at hok ⊢
    dsimp only at hok ⊢
    rw [Pass.launchesRun_iff, Pass.done_countOn (Progress.result_eq_ok_iff.1 hok)]

/-! ## Two blocks -/

/-- The second block starts, and ends after the first one is finished. -/
def secondFirst : List (Nat × CounterOp) :=
  [(1, .add 1 0 (.ofInt 2)), (0, .add 0 0 (.ofInt 2)), (0, .add 1 0 (.ofInt 2)),
    (1, .add 0 1 (.ofInt 2))]

/-- A block for each of the two rows. -/
def rowBlocks : List Block := [⟨⟨0, 0⟩, ⟨1, 2⟩, 2, 0⟩, ⟨⟨0, 1⟩, ⟨1, 2⟩, 2, 0⟩]

/-- One worker, which runs the second block first. -/
def oneWorker : List (List Block) := [rowBlocks.reverse]

theorem tasks_paddedPass : tasks rowBlocks (paddedPass.privatizedOn (.single .checked)) =
    [[.add 0 0 (.ofInt 2), .add 1 0 (.ofInt 2)], [.add 1 0 (.ofInt 2), .add 0 1 (.ofInt 2)]] := by
  cbv

theorem interleaves_secondFirst :
    Interleaves (tasks rowBlocks (paddedPass.privatizedOn (.single .checked))) secondFirst := by
  rw [tasks_paddedPass, secondFirst, interleaves_cons]
  refine ⟨_, rfl, interleaves_cons.2 ⟨_, rfl, interleaves_cons.2 ⟨_, rfl, interleaves_cons.2
    ⟨_, rfl, interleaves_nil.2 ?_⟩⟩⟩⟩
  decide

theorem schedules_agree_padded :
    let m : Machine := .single .checked
    LaunchRun (tasks rowBlocks (paddedPass.privatizedOn m)) usedMemory.counters secondFirst
      #[#[.ofInt 9, .ofInt 9, .ofInt 7], #[.ofInt 11]] ∧
    (∀ trace counters', LaunchRun (oneWorker.map (·.flatMap (paddedPass.privatizedOn m · |>.done)))
      usedMemory.counters trace counters' →
        counters' = #[#[.ofInt 9, .ofInt 9, .ofInt 7], #[.ofInt 11]]) ∧
    LaunchesRun (paddedPass.launchesOn m smallConfig) usedMemory.counters
      (usedMemory.callOn m smallConfig byteFormat paddedRequest 2).1.counters := by
  intro m
  obtain ⟨hlaunch, hworkers, hcall⟩ := schedules_agree (σ := Word .u8) (ℓ := Word .u8) (k := .i32)
  have hkernel : paddedPass.privatizedOn m ∈ paddedPass.kernelsOn m :=
    Pass.kernelOn_mem _ _ .privatized
  have hreplay : replay (tasks rowBlocks (paddedPass.privatizedOn m)).flatten usedMemory.counters =
      #[#[.ofInt 9, .ofInt 9, .ofInt 7], #[.ofInt 11]] := by
    rw [tasks_paddedPass]
    cbv
  refine ⟨?_, ?_, ?_⟩
  · exact (hlaunch _ _ _ hkernel _ _ _ _).2 ⟨interleaves_secondFirst, hreplay.symm⟩
  · intro trace counters' h
    rw [← hreplay]
    exact hworkers _ _ _ hkernel rowBlocks oneWorker (by decide) _ _ trace h
  · exact (hcall _ _ _ _ _ _ _ _ accept_padded rfl _).2 rfl

end LaneGrid
