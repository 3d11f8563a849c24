import LaneGrid.Histogram.MachineCall
import LaneGrid.Proofs.Histogram.Counts

/-!
# Verbosity changes the log only

* `Verbosity.shown`: the lines of a log that a verbosity lets through.
* `Logger.report_eq_shown`: a logger writes of every report what its verbosity lets through, since
  the lines of a report have the level that the report is written from.
* `Pass.countOn_withVerbosity`, `Memory.callOn_withVerbosity`: a call does the same at every
  verbosity, and writes what that verbosity lets through.

`verbosity_law`: two configurations that differ in nothing but their verbosity.
-/

namespace LaneGrid

variable {σ ℓ : Type} {k : IntKind}

/-! ## Lines -/

/-- The lines of a log that are written at a verbosity. -/
def Verbosity.shown (v : Verbosity) (log : List LogLine) : List LogLine :=
  log.filter (v.shows ·.level)

namespace Verbosity

variable {v : Verbosity}

theorem shown_append (log log' : List LogLine) :
    v.shown (log ++ log') = v.shown log ++ v.shown log' := List.filter_append log log'

/-- What each verbosity lets through. -/
theorem shown_eq (v : Verbosity) (log : List LogLine) :
    v.shown log =
      match v with
      | .silent => []
      | .warning => log.filter (·.level = .warning)
      | .info => log.filter fun line => line.level = .warning ∨ line.level = .info
      | .debug => log := by
  cases v with
  | silent =>
    refine List.filter_eq_nil_iff.2 fun line _ => ?_
    cases line <;> exact Bool.false_ne_true
  | warning => exact List.filter_congr fun line _ => by cases line <;> rfl
  | info => exact List.filter_congr fun line _ => by cases line <;> rfl
  | debug => exact List.filter_eq_self.2 fun line _ => by cases line <;> rfl

end Verbosity

namespace Logger

variable (v : Verbosity)

/-- The lines of a report are written together, or none of them is. -/
theorem report_eq_shown {level : Verbosity} {lines : List LogLine}
    (h : ∀ line ∈ lines, line.level = level) :
    report ⟨v⟩ level lines = v.shown (report ⟨.debug⟩ level lines) := by
  have hall : report ⟨.debug⟩ level lines = lines := by cases level <;> rfl
  rw [hall, report, Verbosity.shown]
  split
  · rename_i hshows
    refine (List.filter_eq_self.2 fun line hline => ?_).symm
    rwa [h line hline]
  · rename_i hshows
    refine (List.filter_eq_nil_iff.2 fun line hline => ?_).symm
    rwa [h line hline]

theorem storageSize_eq_shown (bytes : Nat) :
    storageSize ⟨v⟩ bytes = v.shown (storageSize ⟨.debug⟩ bytes) :=
  report_eq_shown v (by simp [LogLine.level])

theorem region_eq_shown (columns rows blocksX : Nat) :
    region ⟨v⟩ columns rows blocksX = v.shown (region ⟨.debug⟩ columns rows blocksX) :=
  report_eq_shown v (by simp [LogLine.level])

theorem strategy_eq_shown (name : String) (totalBins threshold : Nat) :
    strategy ⟨v⟩ name totalBins threshold = v.shown (strategy ⟨.debug⟩ name totalBins threshold) :=
  report_eq_shown v (by simp [LogLine.level])

theorem warn_eq_shown (text : String) : warn ⟨v⟩ text = v.shown (warn ⟨.debug⟩ text) :=
  report_eq_shown v (by simp [LogLine.level])

/-- What a dispatch gives does not depend on whether it is timed. -/
theorem time_eq_shown {β : Type} (name : String) (size : Nat) (dispatch : Unit → β) :
    time ⟨v⟩ name size dispatch =
      ((time ⟨.debug⟩ name size dispatch).1, v.shown (time ⟨.debug⟩ name size dispatch).2) := by
  rw [time_eq, time_eq, ← report_eq_shown v (by simp [LogLine.level])]

end Logger

/-! ## Calls -/

/-- The configuration with another verbosity. -/
def Config.withVerbosity (c : Config) (v : Verbosity) : Config := { c with verbosity := v }

section withVerbosity

variable (c : Config) (v : Verbosity)

@[simp] theorem Config.withVerbosity_verbosity : (c.withVerbosity v).verbosity = v := rfl

@[simp] theorem Config.withVerbosity_workers : (c.withVerbosity v).workers = c.workers := rfl

@[simp] theorem Config.withVerbosity_blockSize : (c.withVerbosity v).blockSize = c.blockSize := rfl

@[simp] theorem Config.withVerbosity_privatizedMaxBins :
    (c.withVerbosity v).privatizedMaxBins = c.privatizedMaxBins := rfl

@[simp] theorem Config.withVerbosity_strategy (totalBins : Nat) :
    (c.withVerbosity v).strategy totalBins = c.strategy totalBins := rfl

@[simp] theorem Config.withVerbosity_zeroGrid (maxBins : Nat) :
    (c.withVerbosity v).zeroGrid maxBins = c.zeroGrid maxBins := rfl

@[simp] theorem Config.withVerbosity_gridOf (blocksX rows : Nat) (s : Strategy) :
    (c.withVerbosity v).gridOf blocksX rows s = c.gridOf blocksX rows s := by
  cases s <;> rfl

@[simp] theorem Machine.blocksX_withVerbosity (m : Machine) (columns : Nat) :
    m.blocksX (c.withVerbosity v) columns = m.blocksX c columns := rfl

@[simp] theorem Machine.launchSize_withVerbosity (m : Machine) (g : Grid) (s : Strategy) :
    m.launchSize (c.withVerbosity v) g s = m.launchSize c g s := by
  cases s <;> rfl

end withVerbosity

/-- A counting call runs the same launches at every verbosity. -/
theorem Pass.countOn_withVerbosity (p : Pass σ) (m : Machine) (c : Config) (v : Verbosity) :
    p.countOn m (c.withVerbosity v) =
      { p.countOn m (c.withVerbosity .debug) with
        log := v.shown (p.countOn m (c.withVerbosity .debug)).log } := by
  unfold countOn
  simp only [Config.withVerbosity_verbosity, Config.withVerbosity_workers,
    Config.withVerbosity_blockSize, Config.withVerbosity_privatizedMaxBins,
    Config.withVerbosity_strategy, Config.withVerbosity_zeroGrid, Config.withVerbosity_gridOf,
    Machine.blocksX_withVerbosity, Machine.launchSize_withVerbosity]
  -- both calls stop at the same place, and every report up to there is shown or not on its own
  cases m.blocksX c p.region.columns with
  | error stop => rfl
  | ok blocksX =>
  dsimp only
  rw [Logger.region_eq_shown v]
  cases m.start c.workers with
  | error stop => rfl
  | ok =>
  dsimp only
  rw [Logger.time_eq_shown v "init_histogram"]
  cases Logger.time ⟨.debug⟩ "init_histogram" p.maxBins fun _ =>
    m.launch (c.zeroGrid p.maxBins) c.blockSize (p.zeroOn m) with
  | mk zeroed zeroing =>
  dsimp only
  cases zeroed.stop with
  | some stop => rfl
  | none =>
  dsimp only
  split
  · simp only [Verbosity.shown_append, ← Logger.warn_eq_shown]
  cases m.launchSize c (c.gridOf blocksX p.region.rows (c.strategy p.totalBins))
    (c.strategy p.totalBins) with
  | error stop => simp only [Verbosity.shown_append, ← Logger.strategy_eq_shown]
  | ok size =>
  dsimp only
  rw [Logger.time_eq_shown v]
  cases Logger.time ⟨.debug⟩ (c.strategy p.totalBins).launchName size fun _ =>
    m.launch (c.gridOf blocksX p.region.rows (c.strategy p.totalBins)) c.blockSize
      (p.kernelOn m (c.strategy p.totalBins)) with
  | mk counted counting =>
  dsimp only
  cases counted.stop with
  | some stop => simp only [Verbosity.shown_append, ← Logger.strategy_eq_shown]
  | none => simp only [Verbosity.shown_append, ← Logger.strategy_eq_shown]

variable [Level ℓ]

/-- So does every call, whether it is refused, asks for a size, counts or stops. -/
theorem Memory.callOn_withVerbosity (memory : Memory k) (m : Machine) (c : Config)
    (v : Verbosity) (format : SampleFormat σ ℓ) (r : Request σ ℓ) (active : Nat) :
    memory.callOn m (c.withVerbosity v) format r active =
      ((memory.callOn m (c.withVerbosity .debug) format r active).1,
        { (memory.callOn m (c.withVerbosity .debug) format r active).2 with
          log := v.shown (memory.callOn m (c.withVerbosity .debug) format r active).2.log }) := by
  unfold callOn
  cases r.accept format (memory.sizes active) with
  | error e => rfl
  | ok accepted =>
    cases accepted with
    | sizing => exact congrArg (_, MachineAnswer.mk _ ·) (Logger.storageSize_eq_shown v _)
    | counting region mappers =>
      dsimp only
      rw [show r.pass (c.withVerbosity v) region mappers =
        r.pass (c.withVerbosity .debug) region mappers from rfl, Pass.countOn_withVerbosity]
      rfl

/-- **A verbosity decides about the log only.** Between two configurations that differ in nothing
else, every call has the same result and leaves the same memory. What it writes at a verbosity is
what it writes at `debug`, less the lines whose level is above that verbosity. -/
theorem verbosity_law (memory : Memory k) (m : Machine) {c c' : Config}
    (h : c.withVerbosity c'.verbosity = c') (format : SampleFormat σ ℓ) (r : Request σ ℓ)
    (active : Nat) :
    let call (c : Config) := memory.callOn m c format r active
    let full := (call (c.withVerbosity .debug)).2.log
    (call c').1 = (call c).1 ∧
    (call c').2.result = (call c).2.result ∧
    (call c').2.log = full.filter (·.level.rank ≤ c'.verbosity.rank) ∧
    (call c').2.log =
      match c'.verbosity with
      | .silent => []
      | .warning => full.filter (·.level = .warning)
      | .info => full.filter fun line => line.level = .warning ∨ line.level = .info
      | .debug => full := by
  intro call full
  have hcall (v : Verbosity) : call (c.withVerbosity v) =
      ((call (c.withVerbosity .debug)).1,
        { (call (c.withVerbosity .debug)).2 with log := v.shown full }) :=
    memory.callOn_withVerbosity m c v format r active
  -- both configurations are one configuration at two verbosities
  have hc : call c = _ := hcall c.verbosity
  have hc' : call c' = _ := h ▸ hcall c'.verbosity
  rw [hc, hc']
  exact ⟨rfl, rfl, rfl, Verbosity.shown_eq _ _⟩

theorem verbosity_law_padded :
    let call (c : Config) := usedMemory.callOn (.single .checked) c byteFormat paddedRequest 2
    smallConfig.withVerbosity (smallConfig.withVerbosity .info).verbosity =
      smallConfig.withVerbosity .info ∧
    (call (smallConfig.withVerbosity .info)).1 = (call smallConfig).1 ∧
    (call (smallConfig.withVerbosity .info)).2.log = [.strategy "privatized" 3 64] := by
  intro call
  have h : smallConfig.withVerbosity (smallConfig.withVerbosity .info).verbosity =
      smallConfig.withVerbosity .info := rfl
  obtain ⟨hmemory, -, hlog, -⟩ :=
    verbosity_law usedMemory (.single .checked) h byteFormat paddedRequest 2
  exact ⟨h, hmemory, hlog.trans rfl⟩

end LaneGrid
