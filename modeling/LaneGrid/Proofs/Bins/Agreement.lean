import LaneGrid.Proofs.Histogram.Counts
import LaneGrid.Proofs.Bins.Lookup
import LaneGrid.Proofs.Bins.Widths

/-!
# Bins of equal width are bins between boundaries

The starts of bins of equal width, and the upper end, are boundaries (`EqualBins.boundaries`), and
the bins between them are the same bins (`mapper_eq`). With more bins than integers some boundaries
repeat. A call is therefore the same call whichever way its bins are given (`same_bins`).

* `EqualBins.steps`: the integers that placing a sample in a bin goes through. They fit into 128
  bits (`steps_mem`).
* `Agrees`: all that the two kinds of bins have in common.
-/

namespace LaneGrid

variable {k : IntKind} {σ : Type}

/-! ## Wide arithmetic -/

namespace IntKind

/-- Wide enough for the products of levels and numbers of bins. -/
def i128 : IntKind := { signed := true, bits := 128 }

/-- An integer is one of the kind. -/
def Holds (k : IntKind) (i : Int) : Prop := k.least ≤ i ∧ i < k.limit

theorem holds_i128 {i : Int} (hl : -2 ^ 127 ≤ i) (hu : i < 2 ^ 127) : i128.Holds i := ⟨hl, hu⟩

theorem bounds_of_bits_le (h : k.bits ≤ 64) : -2 ^ 64 ≤ k.least ∧ k.limit ≤ 2 ^ 64 := by
  have hpow : ∀ n ≤ 64, 2 ^ n ≤ 2 ^ 64 := fun n hn => Nat.pow_le_pow_right Nat.two_pos hn
  have hfull := hpow k.bits h
  have hhalf := hpow (k.bits - 1) (by omega)
  unfold least limit
  simp only [Nat.pow_eq]
  cases k.signed <;> simp only [Bool.false_eq_true, if_false, if_true] <;> omega

end IntKind

namespace EqualBins

variable (m : EqualBins (Word k))

/-- The integers that placing a sample in a bin goes through, before it takes the last one as an
index. -/
def steps (sample : Word k) : List Int :=
  let scaled := Word.scaledOffset sample m.lower m.bins
  let width := m.upper.toInt - m.lower.toInt
  [sample.toInt, m.lower.toInt, m.upper.toInt, sample.toInt - m.lower.toInt, width, m.bins, scaled,
    scaled / width]

variable {m} {sample : Word k}

/-- The last step is an index as it is. -/
theorem evenIndex_cast (hin : inRange m.lower m.upper sample = true) :
    (Word.evenIndex sample m.lower m.upper m.bins : Int) =
      Word.scaledOffset sample m.lower m.bins / (m.upper.toInt - m.lower.toInt) := by
  rw [inRange_iff, Word.le_iff, Word.lt_iff] at hin
  have hscaled : 0 ≤ Word.scaledOffset sample m.lower m.bins :=
    Int.mul_nonneg (by omega) (Int.natCast_nonneg _)
  exact Int.toNat_of_nonneg (Int.ediv_nonneg hscaled (by omega))

theorem steps_mem (hk : k.bits ≤ 64) (hbins : m.bins < 2 ^ 32)
    (hin : inRange m.lower m.upper sample = true) : ∀ i ∈ m.steps sample, IntKind.i128.Holds i := by
  have hindex := evenIndex_lt hin
  have hquotient := evenIndex_cast hin
  obtain ⟨hleast, hlimit⟩ := IntKind.bounds_of_bits_le hk
  have hlower := m.lower.toInt_mem
  have hupper := m.upper.toInt_mem
  rw [inRange_iff, Word.le_iff, Word.lt_iff] at hin
  -- an offset of 65 bits times a number of bins of 32
  have hnonneg : 0 ≤ Word.scaledOffset sample m.lower m.bins :=
    Int.mul_nonneg (by omega) (Int.natCast_nonneg _)
  have hscaled : Word.scaledOffset sample m.lower m.bins ≤ 2 ^ 65 * 2 ^ 32 :=
    Int.mul_le_mul (by omega) (by omega) (Int.natCast_nonneg _) (by decide)
  intro i hi
  simp only [steps, ← hquotient, List.mem_cons, List.not_mem_nil, or_false] at hi
  refine IntKind.holds_i128 ?_ ?_ <;> omega

/-! ## Boundaries -/

variable (m) in
/-- The starts of the bins, and the upper end. -/
def boundaries : Array (Word k) := Array.ofFn fun j : Fin (m.bins + 1) => .ofInt (m.start j)

theorem size_boundaries : m.boundaries.size = m.bins + 1 := Array.size_ofFn

section
variable (hlt : m.lower.toInt < m.upper.toInt)
include hlt

theorem exists_boundary {j : Nat} (hj : j ≤ m.bins) :
    ∃ w, m.boundaries[j]? = some w ∧ w.toInt = m.start j := by
  refine ⟨.ofInt (m.start j), ?_, ?_⟩
  · rw [boundaries, Array.getElem?_ofFn, dif_pos (Nat.lt_succ_of_le hj)]
  · exact Word.toInt_ofInt (Int.le_trans m.lower.toInt_mem.1 (m.lower_le_start j))
      (Int.lt_of_le_of_lt (start_le_upper hlt hj) m.upper.toInt_mem.2)

theorem exists_build : ∃ b, BoundaryBins.build m.boundaries = .ok b := by
  have hsize : m.boundaries.size = m.bins + 1 := size_boundaries
  have hpos := m.bins_pos
  refine BoundaryBins.exists_build_iff.2 ⟨by omega, fun i j hij hj => ?_⟩
  obtain ⟨v, hv, hstart⟩ := exists_boundary hlt (show i ≤ m.bins by omega)
  obtain ⟨w, hw, hstart'⟩ := exists_boundary hlt (show j ≤ m.bins by omega)
  obtain ⟨_, rfl⟩ := Array.getElem?_eq_some_iff.1 hv
  obtain ⟨_, rfl⟩ := Array.getElem?_eq_some_iff.1 hw
  rw [Word.le_iff, hstart, hstart']
  exact m.start_mono (Nat.le_of_lt hij)

theorem between_boundaries_iff {j : Nat} {value : Int} :
    BoundaryBins.Between m.boundaries j value ↔
      j < m.bins ∧ m.start j ≤ value ∧ value < m.start (j + 1) := by
  refine ⟨fun ⟨lower, upper, hlower, hupper, hle, hlt'⟩ => ?_, fun ⟨hj, hle, hlt'⟩ => ?_⟩
  · have hj := (Array.getElem?_eq_some_iff.1 hupper).1
    rw [size_boundaries] at hj
    obtain ⟨v, hv, hstart⟩ := exists_boundary hlt (show j ≤ m.bins by omega)
    obtain ⟨w, hw, hnext⟩ := exists_boundary hlt (show j + 1 ≤ m.bins by omega)
    obtain rfl := Option.some.inj (hlower.symm.trans hv)
    obtain rfl := Option.some.inj (hupper.symm.trans hw)
    exact ⟨by omega, hstart ▸ hle, hnext ▸ hlt'⟩
  · obtain ⟨v, hv, hstart⟩ := exists_boundary hlt (Nat.le_of_lt hj)
    obtain ⟨w, hw, hnext⟩ := exists_boundary hlt (Nat.succ_le_of_lt hj)
    exact ⟨v, w, hv, hw, hstart ▸ hle, hnext ▸ hlt'⟩

theorem bin_eq_bin {b : BoundaryBins (Word k)} (hb : b.boundaries = m.boundaries)
    (sample : Word k) : m.bin sample = b.bin sample := by
  refine Option.ext fun j => ?_
  rw [b.bin_eq_some_iff_between, hb, between_boundaries_iff hlt, bin_eq_some_iff hlt]

theorem mapper_eq {b : BoundaryBins (Word k)} (hb : b.boundaries = m.boundaries)
    (toLevel : σ → Word k) : m.mapper toLevel = b.mapper toLevel := by
  have hbins : b.bins = m.bins := by rw [BoundaryBins.bins, hb, size_boundaries, Nat.add_sub_cancel]
  unfold mapper BoundaryBins.mapper
  rw [Mapper.mk.injEq]
  exact ⟨hbins.symm, funext fun sample => bin_eq_bin hlt hb _⟩

end

/-- Bins of equal width and bins between boundaries that are the same bins. -/
structure Agrees (m : EqualBins (Word k)) (b : BoundaryBins (Word k)) : Prop where
  build_eq : build (m.bins + 1) m.lower m.upper = .ok m
  /-- There is one boundary more than there are bins, each at its share of the width, rounded up. -/
  size_eq : b.boundaries.size = m.bins + 1
  boundary_eq : ∀ j ≤ m.bins, ∃ w, b.boundaries[j]? = some w ∧
    w.toInt = m.lower.toInt + cover (j * (m.upper.toInt - m.lower.toInt).toNat) m.bins
  mapper_eq : ∀ {σ : Type} (toLevel : σ → Word k), m.mapper toLevel = b.mapper toLevel
  /-- Nothing is moved back to the last bin. -/
  unclamped : ∀ sample : Word k, inRange m.lower m.upper sample = true →
    min (Word.evenIndex sample m.lower m.upper m.bins) (m.bins - 1) =
      Word.evenIndex sample m.lower m.upper m.bins
  /-- With levels of at most 64 bits and fewer than `2 ^ 32` bins, 128 bits are enough. -/
  steps_mem : k.bits ≤ 64 → m.bins < 2 ^ 32 → ∀ sample : Word k,
    inRange m.lower m.upper sample = true → (∀ i ∈ m.steps sample, IntKind.i128.Holds i) ∧
      (m.steps sample).getLast? = some (Word.evenIndex sample m.lower m.upper m.bins : Int)

theorem exists_agrees (hlt : m.lower.toInt < m.upper.toInt) :
    ∃ b, BoundaryBins.build m.boundaries = .ok b ∧ m.Agrees b := by
  obtain ⟨b, hb⟩ := exists_build hlt
  have hboundaries := BoundaryBins.build_ok.1 hb
  exact ⟨b, hb,
    { build_eq := build_ok.2 ⟨rfl, rfl, rfl⟩
      size_eq := hboundaries ▸ size_boundaries
      boundary_eq := fun j hj => hboundaries ▸ exists_boundary hlt hj
      mapper_eq := fun toLevel => mapper_eq hlt hboundaries toLevel
      unclamped := fun sample hin => Nat.min_eq_left (Nat.le_sub_one_of_lt (evenIndex_lt hin))
      steps_mem := fun hk hbins sample hin =>
        ⟨EqualBins.steps_mem hk hbins hin, congrArg some (evenIndex_cast hin).symm⟩ }⟩

end EqualBins

/-! ## Calls -/

/-- Channels by the number of their levels and their two ends. -/
def evenBinning (channels : List (EqualBins (Word k))) : Binning (Word k) :=
  .even (channels.map (·.bins + 1)) (channels.map (·.lower)) (channels.map (·.upper))

/-- The same channels by their boundaries. -/
def rangeBinning (channels : List (EqualBins (Word k))) : Binning (Word k) :=
  .range (channels.map (·.boundaries))

section
variable {channels : List (EqualBins (Word k))}
  (h : ∀ m ∈ channels, m.lower.toInt < m.upper.toInt)
include h

/-- Both give the same mappers, or break the same condition. -/
theorem mappers_rangeBinning (active : Nat) (toLevel : σ → Word k) :
    (rangeBinning channels).mappers active toLevel =
      (evenBinning channels).mappers active toLevel := by
  have heven : ∀ m ∈ channels, liftLevels ((·.mapper toLevel) <$>
      EqualBins.build (m.bins + 1) m.lower m.upper) = .ok (m.mapper toLevel) := by
    intro m hm
    rw [EqualBins.build_ok.2 ⟨rfl, rfl, rfl⟩]
    rfl
  have hrange : ∀ m ∈ channels, liftLevels ((·.mapper toLevel) <$>
      BoundaryBins.build m.boundaries) = .ok (m.mapper toLevel) := by
    intro m hm
    obtain ⟨b, hb, hagrees⟩ := EqualBins.exists_agrees (h m hm)
    rw [hb, hagrees.mapper_eq]
    rfl
  simp only [evenBinning, rangeBinning, Binning.mappers, List.length_map]
  by_cases hlength : channels.length = active
  · simp only [ensure_of hlength, ok_bind, List.zip_map', List.mapM_map, Function.comp_def]
    rw [mapM_of_pure heven, mapM_of_pure hrange]
  · simp only [ensure, if_neg hlength]
    rfl

theorem call_rangeBinning {k' : IntKind} (memory : Memory k') (c : Config)
    (format : SampleFormat σ (Word k)) (r : Request σ (Word k)) (active : Nat) :
    memory.call c format { r with binning := rangeBinning channels } active =
      memory.call c format { r with binning := evenBinning channels } active := by
  simp only [Memory.call, Request.accept, mappers_rangeBinning h, Request.pass]

/-- **Bins of equal width are bins between boundaries**, and no call tells them apart: neither its
counters nor its answer. -/
theorem same_bins :
    (∀ m ∈ channels, ∃ b, BoundaryBins.build m.boundaries = .ok b ∧ m.Agrees b) ∧
    ∀ {σ : Type} {k' : IntKind} (memory : Memory k') (c : Config)
      (format : SampleFormat σ (Word k)) (r : Request σ (Word k)) (active : Nat),
      memory.call c format { r with binning := rangeBinning channels } active =
        memory.call c format { r with binning := evenBinning channels } active :=
  ⟨fun m hm => EqualBins.exists_agrees (h m hm), fun memory => call_rangeBinning h memory⟩

end

/-- Two integers in three bins, so that two boundaries are the same. -/
def crowdedBins : EqualBins (Word .i8) := ⟨3, .ofInt (-2), .ofInt 0, Nat.succ_pos 2⟩

def signedFormat : SampleFormat (Word .i8) (Word .i8) := ⟨1, Nat.succ_pos 0, id⟩

/-- Two rows of two samples, with a sample between the rows. -/
def crowdedRequest : Request (Word .i8) (Word .i8) :=
  .evenRegion (some 4) #[.ofInt (-2), .ofInt (-1), .ofInt 9, .ofInt (-1), .ofInt 0] 2 2 3
    4 (.ofInt (-2)) (.ofInt 0)

def boundaryRequest : Request (Word .i8) (Word .i8) :=
  .rangeRegion (some 4) #[.ofInt (-2), .ofInt (-1), .ofInt 9, .ofInt (-1), .ofInt 0] 2 2 3
    #[.ofInt (-2), .ofInt (-1), .ofInt 0, .ofInt 0]

theorem same_bins_crowded :
    (∃ b, BoundaryBins.build crowdedBins.boundaries = .ok b ∧ crowdedBins.Agrees b) ∧
    usedMemory.call smallConfig signedFormat boundaryRequest 1 =
      usedMemory.call smallConfig signedFormat crowdedRequest 1 ∧
    (usedMemory.call smallConfig signedFormat crowdedRequest 1).1.counters =
      #[#[.ofInt 1, .ofInt 2, .ofInt 0], #[.ofInt 7]] := by
  have hends : ∀ m ∈ [crowdedBins], m.lower.toInt < m.upper.toInt := by decide
  have hboundary : { crowdedRequest with binning := rangeBinning [crowdedBins] } =
      boundaryRequest := by
    have hboundaries : crowdedBins.boundaries =
        #[.ofInt (-2), .ofInt (-1), .ofInt 0, .ofInt 0] := by decide
    rw [rangeBinning, List.map_singleton, hboundaries]
    rfl
  obtain ⟨hbins, hcall⟩ := same_bins hends
  refine ⟨hbins crowdedBins (List.mem_singleton_self _), ?_, by cbv⟩
  rw [← hboundary]
  exact hcall usedMemory smallConfig signedFormat crowdedRequest 1

end LaneGrid
