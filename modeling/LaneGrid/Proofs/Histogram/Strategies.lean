import LaneGrid.Proofs.Histogram.Counts

/-!
# Whether strategies agree

Blocks that count in counters of their own have 32 bits for each, also when the counters they are
added to have 64. `strategies_agree_iff`: on counters of 64 bits both strategies leave the same
exactly when every bin's block-local counters come round to zero a multiple of `2 ^ 32` times;
counting straight into the counters is always exact. `privatized_loses`: a call whose strategies
differ by `2 ^ 32` pixels.
-/

namespace LaneGrid

variable {σ ℓ : Type} {k : IntKind}

/-- Losing `2 ^ 32` a number of times goes unnoticed in 64 bits if that number is a multiple of
`2 ^ 32`. -/
theorem ofInt_eq_of_lost {n total times : Nat} (hk : k.bits = 64) (h : n + 2 ^ 32 * times = total) :
    (.ofInt n : Word k) = .ofInt total ↔ 2 ^ 32 ∣ times := by
  rw [Word.ofInt_natCast_inj, hk]
  omega

section
variable {r : Request σ ℓ} {region : Region} {mappers : List (Mapper σ)}

theorem strategy_privatized {c : Config} (h : (mappers.map (·.bins)).sum ≤ c.privatizedMaxBins) :
    c.strategy (r.pass c region mappers).totalBins = .privatized := by
  rw [Pass.totalBins_eq]
  exact if_pos h

theorem strategy_global {c : Config} (h : c.privatizedMaxBins < (mappers.map (·.bins)).sum) :
    c.strategy (r.pass c region mappers).totalBins = .global := by
  rw [Pass.totalBins_eq]
  exact if_neg (Nat.not_le.2 h)

variable [Level ℓ] {memory : Memory k} {cp cg : Config} {format : SampleFormat σ ℓ} {active : Nat}

/-- What counting straight into the counters leaves. -/
theorem cell_call_global
    (haccept : r.accept format (memory.sizes active) = .ok (.counting region mappers))
    (hg : cg.privatizedMaxBins < (mappers.map (·.bins)).sum)
    {channel bin : Nat} {m : Mapper σ} (hm : mappers[channel]? = some m) (hj : bin < m.bins) :
    (memory.call cg format r active).1.counters.cell channel bin =
      some (.ofInt (r.pixelCount region m channel bin)) := by
  obtain ⟨w, hw⟩ := (accept_counting haccept).exists_cell hm hj
  rw [cell_call haccept hm, hw, Option.map_some, if_pos hj,
    Pass.counted_global rfl (strategy_global hg), hitCount_pass hm]

/-- What counting in block-local counters leaves. -/
theorem cell_call_privatized
    (haccept : r.accept format (memory.sizes active) = .ok (.counting region mappers))
    (hp : (mappers.map (·.bins)).sum ≤ cp.privatizedMaxBins)
    {channel bin : Nat} {m : Mapper σ} (hm : mappers[channel]? = some m) (hj : bin < m.bins) :
    ∃ n : Nat, (memory.call cp format r active).1.counters.cell channel bin = some (.ofInt n) ∧
      n + 2 ^ 32 * (r.pass cp region mappers).wraps cp channel bin =
        r.pixelCount region m channel bin := by
  obtain ⟨w, hw⟩ := (accept_counting haccept).exists_cell hm hj
  refine ⟨(r.pass cp region mappers).counted cp channel bin, ?_, ?_⟩
  · rw [cell_call haccept hm, hw, Option.map_some, if_pos hj]
  · rw [Pass.counted_privatized rfl (strategy_privatized hp), hitCount_pass hm]

/-- Counters that no bin stands for are the same after both calls. -/
theorem cell_call_beyond {c c' : Config}
    (haccept : r.accept format (memory.sizes active) = .ok (.counting region mappers))
    {channel bin : Nat} (hnone : ∀ m, mappers[channel]? = some m → m.bins ≤ bin) :
    (memory.call c format r active).1.counters.cell channel bin =
      (memory.call c' format r active).1.counters.cell channel bin := by
  have hbins : ¬∃ m, mappers[channel]? = some m ∧ bin < m.bins := by
    rintro ⟨m, hm, hlt⟩
    exact Nat.not_lt.2 (hnone m hm) hlt
  rw [call_counting haccept, call_counting haccept, Pass.cell_count rfl, Pass.cell_count rfl]
  have hpass : ∀ c, (r.pass c region mappers).mappers = mappers := fun _ => rfl
  simp only [hpass, hbins, if_false]

/-- **Block-local counters lose no pixel** of a 64-bit counter exactly when they come round to zero
a multiple of `2 ^ 32` times, all together. Counting straight into the counters is exact. -/
theorem strategies_agree_iff (hk : k.bits = 64)
    (haccept : r.accept format (memory.sizes active) = .ok (.counting region mappers))
    (hp : (mappers.map (·.bins)).sum ≤ cp.privatizedMaxBins)
    (hg : cg.privatizedMaxBins < (mappers.map (·.bins)).sum) :
    (∀ channel m, mappers[channel]? = some m → ∀ bin < m.bins,
      (memory.call cg format r active).1.counters.cell channel bin =
        some (.ofInt (r.pixelCount region m channel bin))) ∧
    ((memory.call cp format r active).1 = (memory.call cg format r active).1 ↔
      ∀ channel m, mappers[channel]? = some m → ∀ bin < m.bins,
        2 ^ 32 ∣ (r.pass cp region mappers).wraps cp channel bin) := by
  refine ⟨fun channel m hm bin hj => cell_call_global haccept hg hm hj, ?_⟩
  have hcell : ∀ channel m, mappers[channel]? = some m → ∀ bin < m.bins,
      ((memory.call cp format r active).1.counters.cell channel bin =
        (memory.call cg format r active).1.counters.cell channel bin ↔
      2 ^ 32 ∣ (r.pass cp region mappers).wraps cp channel bin) := by
    intro channel m hm bin hj
    obtain ⟨n, hn, hlost⟩ := cell_call_privatized haccept hp hm hj
    rw [hn, cell_call_global haccept hg hm hj, Option.some.injEq]
    exact ofInt_eq_of_lost hk hlost
  constructor
  · intro h channel m hm bin hj
    rw [← hcell channel m hm bin hj, h]
  · intro h
    refine Memory.ext (counters_ext ?_ fun channel bin => ?_) ?_
    · rw [call_counting haccept, call_counting haccept, size_replay, size_replay]
    -- beyond the bins neither call writes
    · by_cases hbin : ∃ m, mappers[channel]? = some m ∧ bin < m.bins
      · obtain ⟨m, hm, hj⟩ := hbin
        exact (hcell channel m hm bin hj).2 (h channel m hm bin hj)
      · exact cell_call_beyond haccept fun m hm => Nat.le_of_not_lt fun hj => hbin ⟨m, hm, hj⟩
    · rw [Memory.call, Memory.call, haccept]

end

/-! ## A region that one block cannot count -/

/-- Bytes that are compared with levels of 32 bits. -/
def widenedFormat : SampleFormat (Word .u8) (Word .i32) := ⟨1, Nat.one_pos, Word.widen (by decide)⟩

/-- Boundaries of one bin for the values below one. -/
def zeroBins : BoundaryBins (Word .i32) := ⟨#[.ofInt 0, .ofInt 1], by decide, by decide⟩

def zeroMapper : Mapper (Word .u8) := zeroBins.mapper widenedFormat.toLevel

/-- Rows that all lie on the same 1024 samples, every one of them zero. -/
def overlappedRequest (rows : Nat) : Request (Word .u8) (Word .i32) :=
  .rangeRegion (some 4) (Array.replicate 1024 (.ofInt 0)) 1024 rows 0 #[.ofInt 0, .ofInt 1]

/-- One block of one lane, and as many bins in block-local counters as given. -/
def oneLane (privatizedMaxBins : Nat) : Config :=
  ⟨⟨1, 2 ^ 10, 1, privatizedMaxBins, 1, .silent⟩, Nat.one_pos, Nat.two_pow_pos 10, Nat.one_pos⟩

def zeroMemory : Memory .u64 := ⟨#[#[.zero]], 0⟩

theorem accept_overlapped (rows : Nat) :
    (overlappedRequest rows).accept widenedFormat (zeroMemory.sizes 1) =
      .ok (.counting ⟨1024, rows, 0⟩ [zeroMapper]) := by
  have hsize : (overlappedRequest rows).samples.size = 1024 := Array.size_replicate
  have hextent : Region.extent? ⟨1024, rows, 0⟩ 1 = some 1024 := by
    simp [Region.extent?, addressable, addressLimit, UInt64.size]
  have hcheck : (Region.check ⟨1024, rows, 0⟩ 1 1024 : Except (RequestError (Word .i32)) Unit) =
      .ok () := by
    rw [Region.check, hextent]
    exact ite_self _
  unfold Request.accept
  rw [hsize]
  show (Region.check ⟨1024, rows, 0⟩ 1 1024 >>= fun _ => _) = _
  rw [hcheck]
  rfl

theorem zeroMapper_bin : zeroMapper.bin (.ofInt 0) = some 0 := by cbv

/-- Every pixel falls into the one bin. -/
theorem pixelCount_overlapped (rows : Nat) :
    (overlappedRequest rows).pixelCount ⟨1024, rows, 0⟩ zeroMapper 0 0 = 1024 * rows := by
  refine pixelCount_of_all fun pixel hpixel => ?_
  have hsample : (overlappedRequest rows).sample? ⟨1024, rows, 0⟩ 0 pixel = some (.ofInt 0) := by
    have hcolumn : pixel.column < 1024 := (mem_pixels.1 hpixel).2
    simp [Request.sample?, overlappedRequest, Request.rangeRegion, hcolumn]
  rw [hsample]
  exact zeroMapper_bin

theorem strategies_agree_on_one_row :
    (zeroMemory.call (oneLane 1024) widenedFormat (overlappedRequest 1) 1).1 =
      (zeroMemory.call (oneLane 0) widenedFormat (overlappedRequest 1) 1).1 := by
  have hp : ([zeroMapper].map (·.bins)).sum ≤ (oneLane 1024).privatizedMaxBins := by decide
  have hg : (oneLane 0).privatizedMaxBins < ([zeroMapper].map (·.bins)).sum := by decide
  refine (strategies_agree_iff rfl (accept_overlapped 1) hp hg).2.2 fun channel m hm bin hj => ?_
  have hwraps := Pass.wraps_eq_zero
    (p := (overlappedRequest 1).pass (oneLane 1024) ⟨1024, 1, 0⟩ [zeroMapper]) rfl
    (strategy_privatized hp) (by decide) channel bin
  rw [hwraps]
  exact Nat.dvd_zero _

theorem privatizedGrid_oneLane {bins rows : Nat} (h : 0 < rows) :
    (oneLane bins).privatizedGrid ⟨1024, rows, 0⟩ = ⟨1, 1⟩ := by
  simp [Config.privatizedGrid, Config.blocksX, Config.tile, cover, oneLane, Nat.min_eq_right h]

theorem cell_overlapped {rows : Nat} (h : 0 < rows) :
    (zeroMemory.call (oneLane 1024) widenedFormat (overlappedRequest rows) 1).1.counters.cell 0 0 =
      some (.ofInt (1024 * rows % 2 ^ 32 : Nat)) := by
  have hp : ([zeroMapper].map (·.bins)).sum ≤ (oneLane 1024).privatizedMaxBins := by decide
  have hm : [zeroMapper][0]? = some zeroMapper := rfl
  have hj : 0 < zeroMapper.bins := by decide
  obtain ⟨n, hn, hlost⟩ := cell_call_privatized (accept_overlapped rows) hp hm hj
  have hwraps := Pass.wraps_of_one_block
    (p := (overlappedRequest rows).pass (oneLane 1024) ⟨1024, rows, 0⟩ [zeroMapper]) rfl
    (privatizedGrid_oneLane h) 0 0
  rw [hwraps, hitCount_pass hm, pixelCount_overlapped] at hlost
  rw [hn, show n = 1024 * rows % 2 ^ 32 by omega]

/-- **Block-local counters lose pixels**: all `2 ^ 32` of them, where counting straight into the
counters loses none. -/
theorem privatized_loses :
    (zeroMemory.call (oneLane 1024) widenedFormat (overlappedRequest (2 ^ 22)) 1).2.result =
      .ok () ∧
    (zeroMemory.call (oneLane 1024) widenedFormat (overlappedRequest (2 ^ 22)) 1).1.counters.cell
      0 0 =
      some (.ofInt 0) ∧
    (zeroMemory.call (oneLane 0) widenedFormat (overlappedRequest (2 ^ 22)) 1).2.result = .ok () ∧
    (zeroMemory.call (oneLane 0) widenedFormat (overlappedRequest (2 ^ 22)) 1).1.counters.cell 0 0 =
      some (.ofInt (2 ^ 32)) ∧
    (.ofInt 0 : Word .u64) ≠ .ofInt (2 ^ 32) := by
  have hg : (oneLane 0).privatizedMaxBins < ([zeroMapper].map (·.bins)).sum := by decide
  have hm : [zeroMapper][0]? = some zeroMapper := rfl
  have hj : 0 < zeroMapper.bins := by decide
  refine ⟨?_, cell_overlapped (Nat.two_pow_pos 22), ?_, ?_, by decide⟩
  · rw [Memory.call, accept_overlapped]
  · rw [Memory.call, accept_overlapped]
  · rw [cell_call_global (accept_overlapped _) hg hm hj, pixelCount_overlapped]
    rfl

end LaneGrid
