import LaneGrid.Histogram.History
import LaneGrid.Proofs.Histogram.MachineCall
import LaneGrid.Proofs.Histogram.Counts

/-!
# What a history leaves

* One call (`CallStep.law`): a refused call changes nothing, one that asks for the size of the
  storage changes that size only, and one that counts, or stops before it has done so, changes only
  the counters that an active channel has a bin for (`CallStep.Reaches`).
* A counter that a call counts into (`CallStep.Counts`) forgets what it held: it gets the same value
  whatever the memory was (`exists_cell_run`).
* All calls (`memory_after`): the storage size is the answered one if a call asked for it and was
  answered, and a counter holds what the last call that counted into it left, or what it held at
  first.
* Where there are indices without end, a call that is accepted does not stop
  (`CallStep.ne_stopped`), so that it counts into all that it reaches.

Whether a call is accepted depends on the sizes of the counter arrays and not on what they hold, and
no call changes a size (`sizes_after`).
-/

namespace LaneGrid

variable {σ ℓ : Type} {k : IntKind}

/-! ## Sizes -/

theorem sizes_eq (memory : Memory k) (active : Nat) :
    memory.sizes active = ((memory.counters.map (·.size)).toList).take active := by
  rw [Memory.sizes, Array.toList_map, List.map_take]

theorem sizes_run (t : CallStep) (memory : Memory k) (active : Nat) :
    (t.run memory).1.sizes active = memory.sizes active := by
  unfold CallStep.run Memory.callOn
  split
  · rfl
  · rfl
  · rw [sizes_eq, sizes_eq, map_size_replay]

theorem sizes_after (memory : Memory k) (steps : List CallStep) (active : Nat) :
    (memory.after steps).sizes active = memory.sizes active := by
  induction steps generalizing memory with
  | nil => rfl
  | cons t steps ih => rw [Memory.after_cons, ih, sizes_run]

/-! ## One call -/

namespace CallStep

/-- The call asks for the size of the storage and is answered. -/
def Sizes (t : CallStep) (memory : Memory k) : Prop :=
  t.request.storage = none ∧ (t.run memory).2.result = .ok ()

/-- The call is accepted for counting, and the channel is an active one with such a bin. -/
def Reaches (t : CallStep) (memory : Memory k) (channel bin : Nat) : Prop :=
  t.request.storage.isSome ∧ (∀ e, (t.run memory).2.result ≠ .error (.refused e)) ∧
    channel < (memory.sizes t.active).length ∧
    ∃ m, t.request.binning.mapper? t.format.toLevel channel = some m ∧ bin < m.bins

/-- The call counts, and the channel is an active one with such a bin. -/
def Counts (t : CallStep) (memory : Memory k) (channel bin : Nat) : Prop :=
  t.Reaches memory channel bin ∧ (t.run memory).2.result = .ok ()

/-- The machine has an index for every counter that it is given. -/
def Indexed (t : CallStep) (memory : Memory k) : Prop :=
  ∀ size ∈ memory.sizes t.active, t.machine.Fits size

/-- What a call leaves alone. -/
structure Law (t : CallStep) (before after : Memory k) : Prop where
  refused : ∀ e, (t.run before).2.result = .error (.refused e) → after = before
  sizing : t.request.storage = none → (t.run before).2.result = .ok () →
    after = { before with storageSize := storageBytes }
  counting : t.request.storage.isSome → (t.run before).2.result = .ok () →
    after.storageSize = before.storageSize ∧ ∀ channel bin, ¬t.Counts before channel bin →
      after.counters.cell channel bin = before.counters.cell channel bin
  stopped : ∀ stop, (t.run before).2.result = .error (.stopped stop) →
    after.storageSize = before.storageSize ∧ ∀ channel bin, ¬t.Reaches before channel bin →
      after.counters.cell channel bin = before.counters.cell channel bin
  /-- Where there are indices without end, nothing but the pool stops a call. -/
  unstopped : t.machine.arithmetic = .exact → t.machine.start t.config.workers = .ok () →
    ∀ stop, (t.run before).2.result ≠ .error (.stopped stop)

variable {t : CallStep} {memory : Memory k}

/-- What a call does is decided by whether it is accepted, and what for. -/
theorem run_eq (t : CallStep) (memory : Memory k) : t.run memory =
    match t.request.accept t.format (memory.sizes t.active) with
    | .error e => (memory, ⟨.error (.refused e), []⟩)
    | .ok .sizing =>
      ({ memory with storageSize := storageBytes },
        ⟨.ok (), Logger.storageSize ⟨t.config.verbosity⟩ storageBytes⟩)
    | .ok (.counting region mappers) =>
      let progress := (t.request.pass t.config region mappers).countOn t.machine t.config
      ({ memory with counters := replay progress.run.done memory.counters },
        ⟨progress.result, progress.log⟩) := by
  unfold run Memory.callOn
  cases t.request.accept t.format (memory.sizes t.active) with
  | error e => rfl
  | ok task => cases task <;> rfl

theorem ne_refused_iff : (∀ e, (t.run memory).2.result ≠ .error (.refused e)) ↔
    ∃ task, t.request.accept t.format (memory.sizes t.active) = .ok task := by
  rw [run_eq]
  cases t.request.accept t.format (memory.sizes t.active) with
  | error e => simp
  | ok task =>
    cases task with
    | sizing => simp
    | counting region mappers =>
      dsimp only [Progress.result]
      split <;> simp

/-- A call with storage that is accepted counts. -/
theorem exists_counting (hreal : t.request.storage.isSome)
    (h : ∀ e, (t.run memory).2.result ≠ .error (.refused e)) :
    ∃ region mappers, t.request.accept t.format (memory.sizes t.active) =
      .ok (.counting region mappers) := by
  obtain ⟨task, haccept⟩ := ne_refused_iff.1 h
  obtain ⟨region, mappers, rfl⟩ := counting_of_accept hreal haccept
  exact ⟨region, mappers, haccept⟩

/-- A call that counts has a mapper for every channel that it counts. -/
theorem reaches_iff {region : Region} {mappers : List (Mapper t.σ)}
    (h : t.request.accept t.format (memory.sizes t.active) = .ok (.counting region mappers))
    {channel bin : Nat} :
    t.Reaches memory channel bin ↔ ∃ m, mappers[channel]? = some m ∧ bin < m.bins := by
  have haccepted := accept_counting h
  constructor
  · rintro ⟨-, -, hchannel, m, hm, hbin⟩
    rw [← haccepted.length_eq] at hchannel
    have hmapper := haccepted.mapper_eq channel _ (List.getElem?_eq_getElem hchannel)
    refine ⟨m, ?_, hbin⟩
    rw [List.getElem?_eq_getElem hchannel, ← hmapper, hm]
  · rintro ⟨m, hm, hbin⟩
    have hreal : t.request.storage.isSome := by
      rcases task_of_accept h with ⟨-, htask⟩ | ⟨hreal, -⟩
      · cases htask
      · exact hreal
    obtain ⟨hchannel, -⟩ := List.getElem?_eq_some_iff.1 hm
    rw [haccepted.length_eq] at hchannel
    exact ⟨hreal, ne_refused_iff.2 ⟨_, h⟩, hchannel, m, haccepted.mapper_eq channel m hm, hbin⟩

/-- How a call ends depends on the sizes of the counter arrays only. -/
theorem result_congr {other : Memory k} (h : other.sizes t.active = memory.sizes t.active) :
    (t.run other).2.result = (t.run memory).2.result := by
  rw [run_eq, run_eq, h]
  cases t.request.accept t.format (memory.sizes t.active) with
  | error e => rfl
  | ok task => cases task <;> rfl

theorem reaches_congr {other : Memory k} (h : other.sizes t.active = memory.sizes t.active)
    {channel bin : Nat} : t.Reaches other channel bin ↔ t.Reaches memory channel bin := by
  unfold Reaches
  rw [result_congr h, h]

theorem counts_congr {other : Memory k} (h : other.sizes t.active = memory.sizes t.active)
    {channel bin : Nat} : t.Counts other channel bin ↔ t.Counts memory channel bin := by
  unfold Counts
  rw [reaches_congr h, result_congr h]

theorem sizes_congr {other : Memory k} (h : other.sizes t.active = memory.sizes t.active) :
    t.Sizes other ↔ t.Sizes memory := by
  unfold Sizes
  rw [result_congr h]

/-- A call that is accepted for counting leaves the storage size and what it does not reach. -/
theorem run_of_counting {region : Region} {mappers : List (Mapper t.σ)}
    (h : t.request.accept t.format (memory.sizes t.active) = .ok (.counting region mappers)) :
    (t.run memory).1.storageSize = memory.storageSize ∧
      ∀ channel bin, ¬t.Reaches memory channel bin →
        (t.run memory).1.counters.cell channel bin = memory.counters.cell channel bin := by
  rw [run_eq, h]
  refine ⟨rfl, fun channel bin hreaches => cell_replay_of_forall_ne (fun op hop hon => ?_) _⟩
  obtain ⟨m, hm, hbin⟩ := Pass.exists_bin_of_mem_countOn hop
  rw [hon.1] at hm
  rw [hon.2] at hbin
  exact hreaches ((reaches_iff h).2 ⟨m, hm, hbin⟩)

/-- Where there are indices without end, nothing but the pool stops a call. -/
theorem ne_stopped (hexact : t.machine.arithmetic = .exact)
    (hstart : t.machine.start t.config.workers = .ok ()) (memory : Memory k) (stop : Stop) :
    (t.run memory).2.result ≠ .error (.stopped stop) := by
  rw [run, Memory.callOn_exact hexact hstart]
  dsimp only [Answer.unstopped]
  cases (memory.call t.config t.format t.request t.active).2.result <;> simp [Except.mapError]

theorem law (t : CallStep) (memory : Memory k) : t.Law memory (t.run memory).1 := by
  have hunstopped := fun hexact hstart => ne_stopped (t := t) hexact hstart memory
  cases haccept : t.request.accept t.format (memory.sizes t.active) with
  | error e =>
    have hrun : t.run memory = (memory, ⟨.error (.refused e), []⟩) := by rw [run_eq, haccept]
    constructor <;> simp [hrun]
  | ok task =>
    have haccepted := ne_refused_iff.2 ⟨task, haccept⟩
    rcases task_of_accept haccept with ⟨hstorage, rfl⟩ | ⟨hreal, region, mappers, rfl⟩
    · have hrun : t.run memory = ({ memory with storageSize := storageBytes },
          ⟨.ok (), Logger.storageSize ⟨t.config.verbosity⟩ storageBytes⟩) := by rw [run_eq, haccept]
      constructor <;> simp [hrun, hstorage]
    · obtain ⟨hsize, hcells⟩ := run_of_counting haccept
      refine ⟨fun e he => absurd he (haccepted e), fun hstorage => ?_, fun _ hok => ?_,
        fun _ _ => ⟨hsize, hcells⟩, hunstopped⟩
      · rw [hstorage] at hreal
        cases hreal
      · exact ⟨hsize, fun channel bin hcounts =>
          hcells channel bin fun hreaches => hcounts ⟨hreaches, hok⟩⟩

/-- A call changes nothing, or the storage size only, or the counters that it reaches only. -/
theorem run_cases (t : CallStep) (memory : Memory k) :
    (t.run memory).1 = memory ∨
    (t.Sizes memory ∧ (t.run memory).1 = { memory with storageSize := storageBytes }) ∨
    ((t.run memory).1.storageSize = memory.storageSize ∧
      ∀ channel bin, ¬t.Reaches memory channel bin →
        (t.run memory).1.counters.cell channel bin = memory.counters.cell channel bin) := by
  have hlaw := t.law memory
  cases hresult : (t.run memory).2.result with
  | error e =>
    cases e with
    | refused e => exact .inl (hlaw.refused e hresult)
    | stopped stop => exact .inr (.inr (hlaw.stopped stop hresult))
  | ok =>
    cases hstorage : t.request.storage with
    | none => exact .inr (.inl ⟨⟨hstorage, hresult⟩, hlaw.sizing hstorage hresult⟩)
    | some provided =>
      obtain ⟨hsize, hcells⟩ := hlaw.counting (by rw [hstorage]; rfl) hresult
      exact .inr (.inr ⟨hsize, fun channel bin hreaches =>
        hcells channel bin fun hcounts => hreaches hcounts.1⟩)

theorem cell_run {channel bin : Nat} (h : ¬t.Reaches memory channel bin) :
    (t.run memory).1.counters.cell channel bin = memory.counters.cell channel bin := by
  rcases t.run_cases memory with hrun | ⟨-, hrun⟩ | ⟨-, hcells⟩
  · rw [hrun]
  · rw [hrun]
  · exact hcells channel bin h

/-- The machine has an index for every bin. -/
theorem Indexed.maxBins {region : Region} {mappers : List (Mapper t.σ)}
    (hindexed : t.Indexed memory)
    (h : t.request.accept t.format (memory.sizes t.active) = .ok (.counting region mappers)) :
    t.machine.Fits (t.request.pass t.config region mappers).maxBins := by
  have haccepted := accept_counting h
  rcases Pass.maxBins_eq_zero_or (t.request.pass t.config region mappers) with
    hzero | ⟨channel, m, hm, hbins⟩
  · rw [hzero]
    exact .inr (by decide)
  · obtain ⟨hchannel, -⟩ := List.getElem?_eq_some_iff.1 hm
    have hsize := List.getElem?_eq_getElem (haccepted.length_eq ▸ hchannel)
    rw [hbins]
    exact (hindexed _ (List.getElem_mem _)).of_le (haccepted.bins_le channel m _ hm hsize)

/-- A counter that a call counts into gets a value that depends on the call only. -/
theorem exists_cell_run (hindexed : t.Indexed memory) {channel bin : Nat}
    (h : t.Counts memory channel bin) :
    ∃ w : Word k, ∀ other : Memory k, other.sizes t.active = memory.sizes t.active →
      (t.run other).1.counters.cell channel bin = some w := by
  obtain ⟨hreaches, hok⟩ := h
  obtain ⟨region, mappers, haccept⟩ := exists_counting hreaches.1 hreaches.2.1
  obtain ⟨m, hm, hbin⟩ := (reaches_iff haccept).1 hreaches
  have hstop : ((t.request.pass t.config region mappers).countOn t.machine t.config).run.stop =
      none := by
    rw [run_eq, haccept] at hok
    exact Progress.result_eq_ok_iff.1 hok
  obtain ⟨n, hn⟩ := Pass.exists_cell_countOn (hindexed.maxBins haccept) hstop hm hbin
  refine ⟨.ofInt n, fun other hsizes => ?_⟩
  have haccept' : t.request.accept t.format (other.sizes t.active) =
      .ok (.counting region mappers) := by rw [hsizes, haccept]
  obtain ⟨w, hw⟩ := (accept_counting haccept').exists_cell hm hbin
  rw [run_eq, haccept']
  dsimp only
  rw [hn, hw, Option.map_some]

theorem storageSize_run_of_sizes (h : t.Sizes memory) :
    (t.run memory).1.storageSize = storageBytes := by
  rw [(t.law memory).sizing h.1 h.2]

theorem storageSize_run (h : ¬t.Sizes memory) :
    (t.run memory).1.storageSize = memory.storageSize := by
  rcases t.run_cases memory with hrun | ⟨hsizes, -⟩ | ⟨hsize, -⟩
  · rw [hrun]
  · exact absurd hsizes h
  · exact hsize

end CallStep

/-! ## All calls -/

theorem reaches_after {t : CallStep} {memory : Memory k} (steps : List CallStep)
    {channel bin : Nat} :
    t.Reaches (memory.after steps) channel bin ↔ t.Reaches memory channel bin :=
  CallStep.reaches_congr (sizes_after memory steps t.active)

theorem counts_after {t : CallStep} {memory : Memory k} (steps : List CallStep)
    {channel bin : Nat} :
    t.Counts (memory.after steps) channel bin ↔ t.Counts memory channel bin :=
  CallStep.counts_congr (sizes_after memory steps t.active)

/-- What every call leaves alone, whatever the counters hold, all calls leave alone. -/
theorem after_eq {β : Type} (f : Memory k → β) {memory : Memory k} {steps : List CallStep}
    (h : ∀ t ∈ steps, ∀ other : Memory k, (∀ active, other.sizes active = memory.sizes active) →
      f (t.run other).1 = f other) : f (memory.after steps) = f memory := by
  induction steps using List.reverseRecOn with
  | nil => rfl
  | append_singleton steps t ih =>
    have hlast := h t (by simp) (memory.after steps) (sizes_after memory steps)
    rw [Memory.after_append, Memory.after_cons, Memory.after_nil, hlast]
    refine ih ?_
    intro t' ht'
    exact h t' (List.mem_append_left _ ht')

theorem cell_after {memory : Memory k} {steps : List CallStep} {channel bin : Nat}
    (h : ∀ t ∈ steps, ¬t.Reaches memory channel bin) :
    (memory.after steps).counters.cell channel bin = memory.counters.cell channel bin := by
  refine after_eq (·.counters.cell channel bin) ?_
  intro t ht other hsizes
  refine CallStep.cell_run ?_
  rw [CallStep.reaches_congr (hsizes t.active)]
  exact h t ht

theorem storageSize_after {memory : Memory k} {steps : List CallStep}
    (h : ∀ t ∈ steps, ¬t.Sizes memory) :
    (memory.after steps).storageSize = memory.storageSize := by
  refine after_eq (·.storageSize) ?_
  intro t ht other hsizes
  refine CallStep.storageSize_run ?_
  rw [CallStep.sizes_congr (hsizes t.active)]
  exact h t ht

theorem storageSize_after_of_sizes {memory : Memory k} {steps : List CallStep}
    (h : ∃ t ∈ steps, t.Sizes memory) : (memory.after steps).storageSize = storageBytes := by
  induction steps generalizing memory with
  | nil => simp at h
  | cons t steps ih =>
    have hcongr : ∀ t' : CallStep, t'.Sizes (t.run memory).1 ↔ t'.Sizes memory := by
      intro t'
      exact CallStep.sizes_congr (sizes_run t memory t'.active)
    rw [Memory.after_cons]
    by_cases hlater : ∃ t' ∈ steps, t'.Sizes (t.run memory).1
    · exact ih hlater
    · -- then it was the first call
      have hfirst : t.Sizes memory := by
        obtain ⟨t', ht', hsizes⟩ := h
        rcases List.mem_cons.1 ht' with rfl | ht'
        · exact hsizes
        · exact absurd ⟨t', ht', (hcongr t').2 hsizes⟩ hlater
      rw [storageSize_after, CallStep.storageSize_run_of_sizes hfirst]
      intro t' ht' hsizes
      exact hlater ⟨t', ht', hsizes⟩

theorem after_take_succ (memory : Memory k) {steps : List CallStep} {i : Nat} {t : CallStep}
    (h : steps[i]? = some t) :
    memory.after (steps.take (i + 1)) = (t.run (memory.after (steps.take i))).1 := by
  rw [List.take_add_one, h, Memory.after_append]
  rfl

/-- **What a history leaves.** Every call obeys the law. A counter holds what the last call that
reaches it left, whatever came before, if that call counted and had an index for every counter, and
what it held at first if no call reaches it. -/
theorem memory_after (memory : Memory k) (steps : List CallStep) :
    (∀ (i : Nat) (t : CallStep), steps[i]? = some t →
      t.Law (memory.after (steps.take i)) (memory.after (steps.take (i + 1)))) ∧
    ((∃ (i : Nat) (t : CallStep), steps[i]? = some t ∧ t.Sizes (memory.after (steps.take i))) →
      (memory.after steps).storageSize = storageBytes) ∧
    ((∀ (i : Nat) (t : CallStep), steps[i]? = some t → ¬t.Sizes (memory.after (steps.take i))) →
      (memory.after steps).storageSize = memory.storageSize) ∧
    ∀ channel bin : Nat,
      (∀ (i : Nat) (t : CallStep), steps[i]? = some t →
        t.Counts (memory.after (steps.take i)) channel bin → t.Indexed memory →
        (∀ (j : Nat) (t' : CallStep), i < j → steps[j]? = some t' →
          ¬t'.Reaches (memory.after (steps.take j)) channel bin) →
        ∃ w : Word k, (memory.after steps).counters.cell channel bin = some w ∧
          ∀ other : Memory k, other.sizes t.active = memory.sizes t.active →
            (t.run other).1.counters.cell channel bin = some w) ∧
      ((∀ (i : Nat) (t : CallStep), steps[i]? = some t →
        ¬t.Reaches (memory.after (steps.take i)) channel bin) →
        (memory.after steps).counters.cell channel bin =
          memory.counters.cell channel bin) := by
  refine ⟨?_, ?_, ?_, ?_⟩
  · intro i t ht
    rw [after_take_succ memory ht]
    exact t.law _
  · rintro ⟨i, t, ht, hsizes⟩
    rw [CallStep.sizes_congr (sizes_after memory _ _)] at hsizes
    exact storageSize_after_of_sizes ⟨t, List.mem_of_getElem? ht, hsizes⟩
  · intro h
    refine storageSize_after ?_
    intro t hmem
    obtain ⟨i, ht⟩ := List.mem_iff_getElem?.1 hmem
    rw [← CallStep.sizes_congr (sizes_after memory (steps.take i) t.active)]
    exact h i t ht
  · intro channel bin
    constructor
    · intro i t ht hcounts hindexed hlast
      rw [counts_after] at hcounts
      obtain ⟨w, hw⟩ := CallStep.exists_cell_run hindexed hcounts
      refine ⟨w, ?_, hw⟩
      -- the calls behind it leave the counter alone
      have hsplit : memory.after steps =
          (memory.after (steps.take (i + 1))).after (steps.drop (i + 1)) := by
        rw [← Memory.after_append, List.take_append_drop]
      rw [hsplit, cell_after, after_take_succ memory ht]
      · exact hw _ (sizes_after memory _ _)
      · intro t' hmem
        obtain ⟨j, ht'⟩ := List.mem_iff_getElem?.1 hmem
        rw [List.getElem?_drop] at ht'
        have hnot := hlast (i + 1 + j) t' (by omega) ht'
        rw [reaches_after] at hnot ⊢
        exact hnot
    · intro h
      refine cell_after ?_
      intro t hmem
      obtain ⟨i, ht⟩ := List.mem_iff_getElem?.1 hmem
      rw [← reaches_after (steps.take i)]
      exact h i t ht

/-! ## Four calls -/

/-- A call that counts the first two channels. -/
def padded : CallStep := ⟨.single .checked, smallConfig, byteFormat, paddedRequest, 2⟩

/-- The same call, given this storage. -/
def paddedWith (storage : Option Nat) : CallStep :=
  ⟨.single .wrapping, smallConfig, byteFormat, { paddedRequest with storage }, 2⟩

def oneBin : BoundaryBins (Word .u8) := ⟨#[.ofInt 0, .ofInt 10], by decide, by decide⟩

/-- A call that counts the first channel in one bin. -/
def single : CallStep :=
  ⟨.single .wrapping, smallConfig, byteFormat,
    .rangeLinear (some 4) #[.ofInt 5, .ofInt 9] #[.ofInt 0, .ofInt 10], 1⟩

/-- Asks for the size of the storage, counts, is refused for want of storage, and counts one channel
again. -/
def fourCalls : List CallStep := [paddedWith none, padded, paddedWith (some 3), single]

theorem accept_single : single.request.accept single.format (usedMemory.sizes single.active) =
    .ok (.counting ⟨2, 1, 2⟩ [oneBin.mapper id]) := by
  rfl

theorem padded_counts : padded.Counts usedMemory 0 1 :=
  ⟨(CallStep.reaches_iff accept_padded).2 ⟨_, rfl, by decide⟩, by rfl⟩

theorem padded_indexed : padded.Indexed usedMemory := by
  intro size hsize
  have hsmall : ∀ size ∈ usedMemory.sizes 2, size < addressLimit := by decide
  exact .inr (hsmall size hsize)

theorem single_not_reaches : ¬single.Reaches usedMemory 0 1 := by
  rw [CallStep.reaches_iff accept_single]
  rintro ⟨m, hm, hbin⟩
  cases hm
  exact absurd hbin (by decide)

theorem refused_not_reaches {channel bin : Nat} :
    ¬(paddedWith (some 3)).Reaches usedMemory channel bin := by
  rintro ⟨-, hok, -⟩
  exact hok _ rfl

theorem sizing_sizes : (paddedWith none).Sizes usedMemory := ⟨rfl, rfl⟩

/-- The second call decides the second counter of the first channel. -/
theorem memory_after_fourCalls :
    (usedMemory.after fourCalls).storageSize = storageBytes ∧
    (∃ w, (usedMemory.after fourCalls).counters.cell 0 1 = some w ∧
      ∀ other : Memory .i32, other.sizes 2 = [3, 1] →
        (padded.run other).1.counters.cell 0 1 = some w) := by
  obtain ⟨-, hstorage, -, hcells⟩ := memory_after usedMemory fourCalls
  constructor
  · exact hstorage ⟨0, _, rfl, sizing_sizes⟩
  · refine (hcells 0 1).1 1 padded rfl ((counts_after _).2 padded_counts) padded_indexed ?_
    intro j t hj ht
    rw [reaches_after]
    match j with
    | 2 =>
      cases ht
      exact refused_not_reaches
    | 3 =>
      cases ht
      exact single_not_reaches

end LaneGrid
