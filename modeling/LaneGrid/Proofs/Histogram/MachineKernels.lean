import LaneGrid.Histogram.MachineKernels
import LaneGrid.Proofs.Histogram.BlockCounts

/-!
# What a machine reads

* A block reads pixels of the region only, whatever becomes of numbers that are too large
  (`mem_privatizedVisitsOn`, `mem_globalVisitsOn`).
* Where every number that a block comes by is an index (`Pass.BlockFits`, `Pass.TileFits`), it reads
  what it reads in the pass (`privatizedVisitsOn_eq`, `globalVisitsOn_eq`) and does to the counters
  what it does in the pass (`zeroOn_eq`, `privatizedOn_eq`, `globalOn_eq`).
* A block with counters of its own adds what the pixels that it reads amount to
  (`privatizedOn_eq_flush`), also when only one row is read for all of them (`tallyOn_eq`).
-/

namespace LaneGrid

variable {σ : Type} {m : Machine}

/-! ## Walks -/

namespace Walk

variable {α β γ : Type}

@[simp] theorem stop_map (w : Walk α) (f : α → β) : (w.map f).stop = w.stop := rfl

theorem append_of_some {w w' : Walk α} {stop : Stop} (h : w.stop = some stop) :
    w.append w' = w := by
  rw [append, h]

@[simp] theorem append_nil (w : Walk α) : w.append (ofList []) = w := by
  cases hstop : w.stop with
  | none =>
    rw [eq_ofList hstop, append_ofList, List.append_nil]
  | some stop => exact append_of_some hstop

/-- Two walks get to their end together. -/
theorem stop_append_eq_none {w w' : Walk α} :
    (w.append w').stop = none ↔ w.stop = none ∧ w'.stop = none := by
  cases hstop : w.stop <;> simp [append, hstop]

theorem done_append {w : Walk α} (h : w.stop = none) (w' : Walk α) :
    (w.append w').done = w.done ++ w'.done := by
  rw [append, h]

theorem mem_append {w w' : Walk α} {a : α} (h : a ∈ (w.append w').done) :
    a ∈ w.done ∨ a ∈ w'.done := by
  unfold append at h
  split at h
  · exact List.mem_append.1 h
  · exact .inl h

theorem mem_strided {start stop step : Nat} {f : Nat → Walk α} {a : α}
    (h : a ∈ (strided start stop step f).done) :
    ∃ n, n < stop ∧ a ∈ (f n).done := by
  unfold strided at h
  split at h
  · cases h
  · rename_i hstep
    obtain ⟨n, hn, ha⟩ := mem_each h
    obtain ⟨_, -, hlt⟩ := (LaneGrid.mem_strided (Nat.pos_of_ne_zero hstep)).1 hn
    exact ⟨n, hlt, ha⟩

/-- One walk done again and again stops the first time, or never. -/
theorem finish_each_map (w : Walk α) (g : β → α → γ) (b : β) (l : List β) :
    (each (b :: l) fun b => w.map (g b)).finish =
      w.finish.map fun done => (b :: l).flatMap fun b => done.map (g b) := by
  cases hstop : w.stop with
  | none =>
    rw [eq_ofList hstop, each_ofList fun _ _ => map_ofList _ _, finish_ofList, finish_ofList]
    rfl
  | some stop => simp [finish, append, hstop, Except.map]

end Walk

theorem Machine.mem_withIndex {α : Type} {n : Nat} {f : Nat → Walk α} {a : α}
    (h : a ∈ (m.withIndex n f).done) : ∃ index, a ∈ (f index).done := by
  unfold withIndex at h
  split at h
  · exact ⟨_, h⟩
  · cases h

/-! ## Columns -/

namespace Machine

/-- A lane whose columns are indices, up to the first one beyond the row, reads what it reads in the
pass. -/
theorem laneColumns_eq {columns size offset lane : Nat} : ∀ {items item : Nat},
    (∀ i < items, (∀ j < i, offset + (item + j) * size + lane < columns) →
      m.Fits (offset + (item + i) * size + lane)) →
    m.laneColumns columns size offset lane items item =
      .ofList (Pass.laneColumns columns size items (offset + item * size + lane))
  | 0, _, _ => rfl
  | items + 1, item, h => by
    have hfirst : m.Fits (offset + item * size + lane) := h 0 (Nat.succ_pos _) (by simp)
    rw [laneColumns, Pass.laneColumns, withIndex_of_fits hfirst]
    split
    · rename_i hin
      have hnext : offset + item * size + lane + size = offset + (item + 1) * size + lane := by
        rw [Nat.succ_mul]
        omega
      rw [hnext, laneColumns_eq]
      · rfl
      · intro i hi hbefore
        rw [Nat.add_assoc item, Nat.add_comm 1]
        refine h (i + 1) (Nat.succ_lt_succ hi) fun j hj => ?_
        cases j with
        | zero => exact hin
        | succ j =>
          rw [Nat.add_comm j, ← Nat.add_assoc item]
          exact hbefore j (Nat.lt_of_succ_lt_succ hj)
    · rfl

end Machine

namespace Pass

variable {p : Pass σ} {b : Block} {pixel : Pixel}

/-! ## Numbers of a block -/

/-- The columns at which the lanes of a tile look, and the first one beyond the row, are indices. -/
def TileFits (p : Pass σ) (m : Machine) (size offset : Nat) : Prop :=
  ∀ lane < size, ∀ item < p.itemsPerLane,
    (∀ earlier < item, offset + earlier * size + lane < p.region.columns) →
    m.Fits (offset + item * size + lane)

/-- The numbers that a block comes by on its way through its tiles are indices. -/
structure BlockFits (p : Pass σ) (m : Machine) (b : Block) : Prop where
  tile : m.Fits (b.size * p.itemsPerLane)
  start : m.Fits (b.index.x * (b.size * p.itemsPerLane))
  step : m.Fits (b.grid.x * (b.size * p.itemsPerLane))
  columns : ∀ offset ∈ strided (b.index.x * (b.size * p.itemsPerLane)) p.region.columns
    (b.grid.x * (b.size * p.itemsPerLane)), p.TileFits m b.size offset

/-! ## Pixels -/

theorem tileColumnsOn_eq {size offset : Nat} (h : p.TileFits m size offset) :
    p.tileColumnsOn m size offset = .ofList (p.tileColumns size offset) := by
  refine Walk.each_ofList fun lane hlane => ?_
  rw [Machine.laneColumns_eq, Nat.zero_mul, Nat.add_zero]
  simp only [Nat.zero_add]
  exact h lane (List.mem_range.1 hlane)

theorem rowColumnsOn_eq (hstep : 0 < b.grid.x * (b.size * p.itemsPerLane)) (h : p.BlockFits m b) :
    p.rowColumnsOn m b (b.size * p.itemsPerLane) = .ofList (p.rowColumns b) := by
  rw [rowColumnsOn, Machine.withIndex_of_fits h.start, Machine.withIndex_of_fits h.step]
  exact Walk.strided_ofList hstep fun offset hoffset => tileColumnsOn_eq (h.columns offset hoffset)

theorem privatizedVisitsOn_eq (hx : 0 < b.grid.x) (hy : 0 < b.grid.y) (hsize : 0 < b.size)
    (hitems : 0 < p.itemsPerLane) (h : p.BlockFits m b) :
    p.privatizedVisitsOn m b = .ofList (p.privatizedVisits b) := by
  rw [privatizedVisitsOn, visitsBelow, Machine.withIndex_of_fits h.tile]
  refine Walk.strided_ofList hy fun row _ => ?_
  rw [rowColumnsOn_eq (Nat.mul_pos hx (Nat.mul_pos hsize hitems)) h, Walk.map_ofList,
    ← rowVisits_eq_map]

theorem globalVisitsOn_eq (hstart : m.Fits (b.index.x * (b.size * p.itemsPerLane)))
    (h : p.TileFits m b.size (b.index.x * (b.size * p.itemsPerLane))) :
    p.globalVisitsOn m b = .ofList (p.globalVisits b) := by
  rw [globalVisitsOn, Machine.withIndex_of_fits hstart, tileColumnsOn_eq h, Walk.map_ofList,
    ← tileVisits_eq_map]
  rfl

/-! ## Counters -/

/-- A block that sets counters to zero does so to counters of bins. -/
theorem mem_zeroOn {op : CounterOp} (h : op ∈ (p.zeroOn m b).done) :
    ∃ channel mapper, p.mappers[channel]? = some mapper ∧
      ∃ bin < mapper.bins, op = .reset channel bin := by
  obtain ⟨lane, -, h⟩ := Walk.mem_each h
  obtain ⟨index, h⟩ := Machine.mem_withIndex h
  obtain ⟨⟨bins, channel⟩, hmem, h⟩ := List.mem_filterMap.1 h
  rw [List.mem_zipIdx_iff_getElem?, Pass.bins, List.getElem?_map, Option.map_eq_some_iff] at hmem
  obtain ⟨mapper, hmapper, rfl⟩ := hmem
  dsimp only at h
  split at h
  · rename_i hlt
    exact ⟨channel, mapper, hmapper, index, hlt, (Option.some.inj h).symm⟩
  · cases h

/-- A block that counts adds to counters of bins. -/
theorem mem_kernelOn {s : Strategy} {op : CounterOp} (h : op ∈ (p.kernelOn m s b).done) :
    ∃ channel mapper, p.mappers[channel]? = some mapper ∧
      ∃ bin < mapper.bins, ∃ count, op = .add channel bin count := by
  cases s with
  | privatized =>
    simp only [kernelOn, privatizedOn] at h
    split at h
    · obtain ⟨channel, n, hn, bin, hlt, count, rfl⟩ := mem_flush h
      rw [Pass.bins, List.getElem?_map, Option.map_eq_some_iff] at hn
      obtain ⟨mapper, hmapper, rfl⟩ := hn
      exact ⟨channel, mapper, hmapper, bin, hlt, count, rfl⟩
    · cases h
  | global =>
    obtain ⟨pixel, -, h⟩ := List.mem_flatMap.1 h
    obtain ⟨⟨channel, bin⟩, hhit, rfl⟩ := List.mem_map.1 h
    obtain ⟨mapper, hmapper, hlt⟩ := binAt_lt (mem_hits.1 hhit)
    exact ⟨channel, mapper, hmapper, bin, hlt, _, rfl⟩

theorem zeroOn_eq (h : ∀ lane < b.size, m.Fits (b.index.x * b.size + lane)) :
    p.zeroOn m b = .ofList (p.zero b).ops := by
  refine Walk.each_ofList fun lane hlane => ?_
  rw [Machine.withIndex_of_fits (h lane (List.mem_range.1 hlane))]

/-- **The block-local counters are those of the pixels that the block reads**, also when only one
row is read for all of them. -/
theorem tallyOn_eq (p : Pass σ) (m : Machine) (b : Block) :
    p.tallyOn m b = p.tallyOf <$> (p.privatizedVisitsOn m b).finish := by
  unfold tallyOn
  split
  · rename_i hstride
    unfold privatizedVisitsOn visitsBelow Machine.withIndex
    cases m.index (b.size * p.itemsPerLane) with
    | error stop => rfl
    | ok tile =>
    unfold Walk.strided
    dsimp only
    split
    · rfl
    · rename_i hne
      have hstep : 0 < b.grid.y := Nat.pos_of_ne_zero hne
      rcases Nat.lt_or_ge b.index.y p.region.rows with hrow | hrow
      · have hone :
            strided b.index.y (min p.region.rows (b.index.y + 1)) b.grid.y = [b.index.y] := by
          rw [strided_of_lt (by omega) hstep, strided_of_le (by omega) hstep]
        have hrows : cover (p.region.rows - b.index.y) b.grid.y =
            (strided b.index.y p.region.rows b.grid.y).length := List.length_range'.symm
        rw [hone, hrows, strided_of_lt hrow hstep, Walk.finish_each_map, Walk.finish_each_map]
        cases (p.rowColumnsOn m b tile).finish with
        | error stop => rfl
        | ok columns =>
          refine congrArg Except.ok ?_
          dsimp only
          rw [List.flatMap_singleton]
          exact (tallyOf_rows hstride columns (_ :: _) b.index.y).symm
      · -- there is no row to read
        rw [strided_of_le hrow hstep, strided_of_le (by omega) hstep,
          Nat.sub_eq_zero_of_le hrow, cover_zero hstep]
        refine congrArg Except.ok ?_
        simp [Walk.ofList, tallyOf, Word.mul, Word.ofInt, Word.zero]
  · rfl

/-- What a block with counters of its own does is decided by the pixels that it reads. -/
theorem privatizedOn_eq_flush (p : Pass σ) (m : Machine) (b : Block) :
    p.privatizedOn m b =
      match (p.privatizedVisitsOn m b).finish with
      | .ok pixels => .ofList (flush p.bins b.size (p.tallyOf pixels))
      | .error stop => .stopped stop := by
  rw [privatizedOn, tallyOn_eq]
  cases (p.privatizedVisitsOn m b).finish <;> rfl

theorem privatizedOn_eq (h : p.privatizedVisitsOn m b = .ofList (p.privatizedVisits b)) :
    p.privatizedOn m b = .ofList (p.privatized b).ops := by
  rw [privatizedOn_eq_flush, h, privatized, tally_eq]
  rfl

theorem globalOn_eq (h : p.globalVisitsOn m b = .ofList (p.globalVisits b)) :
    p.globalOn m b = .ofList (p.global b).ops := by
  rw [globalOn, h, Walk.flatMap_ofList]
  rfl

end Pass

end LaneGrid
