import LaneGrid.Proofs.Histogram.Tiling
import LaneGrid.Proofs.Histogram.Replay

/-!
# What one block adds

The operations of a block add, to every counter of an active channel, how many of the pixels that
the block reads fall into its bin (`Pass.hitCount`): exactly when it counts straight into the
counters (`added_global`), and modulo `2 ^ 32` when it counts in counters of its own
(`added_privatized`).

* Slots: the channels of the block-local counters do not overlap (`slot_inj`), so that a slot counts
  the hits of its own channel and bin (`count_slots`, `getElem?_tally`).
* Flush: every slot is added once, by whatever lane comes to it (`flush_perm`, `opsOn_flush`), if
  there is anything to add (`opsOn_privatized`).
-/

namespace LaneGrid

open scoped List

namespace Pass

variable {σ : Type}

/-! ## Hits -/

/-- The bin of an active channel of a pixel, if its sample is in range. -/
def binAt (p : Pass σ) (channel : Nat) (pixel : Pixel) : Option Nat :=
  p.mappers[channel]?.bind fun m => p.samples[p.pixelStart pixel + channel]?.bind m.bin

/-- How many of the pixels fall into a bin. -/
def hitCount (p : Pass σ) (channel bin : Nat) (pixels : List Pixel) : Nat :=
  pixels.countP fun pixel => p.binAt channel pixel = some bin

@[simp] theorem hitCount_nil (p : Pass σ) (channel bin : Nat) : p.hitCount channel bin [] = 0 := rfl

theorem hitCount_cons (p : Pass σ) (channel bin : Nat) (pixel : Pixel) (pixels : List Pixel) :
    p.hitCount channel bin (pixel :: pixels) =
      (if p.binAt channel pixel = some bin then 1 else 0) + p.hitCount channel bin pixels := by
  simp only [hitCount, List.countP_cons, decide_eq_true_eq]
  omega

theorem hitCount_flatMap {β : Type} (p : Pass σ) (channel bin : Nat) (l : List β)
    (f : β → List Pixel) :
    p.hitCount channel bin (l.flatMap f) = (l.map fun b => p.hitCount channel bin (f b)).sum := by
  simp only [hitCount, List.countP_flatMap, Function.comp_def]

theorem hitCount_perm (p : Pass σ) (channel bin : Nat) {l l' : List Pixel} (h : l ~ l') :
    p.hitCount channel bin l = p.hitCount channel bin l' :=
  h.countP_eq _

/-- A hit is in a bin of an active channel. -/
theorem binAt_lt {p : Pass σ} {channel bin : Nat} {pixel : Pixel}
    (h : p.binAt channel pixel = some bin) :
    ∃ m, p.mappers[channel]? = some m ∧ bin < m.bins := by
  obtain ⟨m, hm, h⟩ := Option.bind_eq_some_iff.1 h
  obtain ⟨_, _, h⟩ := Option.bind_eq_some_iff.1 h
  exact ⟨m, hm, m.bin_lt h⟩

/-- A bin that its channel does not have is never hit. -/
theorem hitCount_eq_zero {p : Pass σ} {channel bin : Nat}
    (h : ∀ m, p.mappers[channel]? = some m → m.bins ≤ bin) (pixels : List Pixel) :
    p.hitCount channel bin pixels = 0 := by
  rw [hitCount, List.countP_eq_zero]
  intro pixel _ hbin
  obtain ⟨m, hm, hlt⟩ := binAt_lt (of_decide_eq_true hbin)
  have := h m hm
  omega

theorem mem_hits {p : Pass σ} {pixel : Pixel} {channel bin : Nat} :
    (channel, bin) ∈ p.hits pixel ↔ p.binAt channel pixel = some bin := by
  simp only [hits, binAt, List.mem_filterMap, List.mem_zipIdx_iff_getElem?, Prod.exists,
    Option.map_eq_some_iff, Prod.mk.injEq]
  constructor
  · rintro ⟨m, c, hm, j, hj, rfl, rfl⟩
    rw [hm]
    exact hj
  · intro h
    obtain ⟨m, hm, h⟩ := Option.bind_eq_some_iff.1 h
    exact ⟨m, channel, hm, bin, h, rfl, rfl⟩

/-- A pixel has one hit per channel at most. -/
theorem nodup_hits (p : Pass σ) (pixel : Pixel) : (p.hits pixel).Nodup := by
  have hchannels : p.mappers.zipIdx.Pairwise fun a b => a.2 ≠ b.2 := by
    rw [← List.pairwise_map (R := (· ≠ ·)), List.zipIdx_map_snd]
    exact List.nodup_range'
  refine List.pairwise_filterMap.2 (hchannels.imp fun hne a ha b hb hab => hne ?_)
  obtain ⟨_, _, rfl⟩ := Option.map_eq_some_iff.1 ha
  obtain ⟨_, _, rfl⟩ := Option.map_eq_some_iff.1 hb
  exact congrArg Prod.fst hab

theorem count_hits (p : Pass σ) (pixel : Pixel) (channel bin : Nat) :
    (p.hits pixel).count (channel, bin) = if p.binAt channel pixel = some bin then 1 else 0 := by
  split
  · rename_i h
    exact List.count_eq_one_of_mem (p.nodup_hits pixel) (mem_hits.2 h)
  · rename_i h
    exact List.count_eq_zero.2 fun hm => h (mem_hits.1 hm)

/-! ## Counting straight into the counters -/

theorem added_hits (hits : List (Nat × Nat)) (channel bin : Nat) :
    added (hits.map fun (c, j) => .add c j (.ofInt 1)) channel bin = hits.count (channel, bin) := by
  induction hits with
  | nil => rfl
  | cons hit hits ih =>
    obtain ⟨c, j⟩ := hit
    rw [List.map_cons, added_cons, ih, List.count_cons, Nat.add_comm]
    simp only [CounterOp.amount, beq_iff_eq, Prod.mk.injEq]
    rfl

/-- **A block that counts straight into the counters** adds every hit. -/
theorem added_global (p : Pass σ) (b : Block) (channel bin : Nat) :
    added (p.global b).ops channel bin = p.hitCount channel bin (p.globalVisits b) := by
  unfold global
  dsimp only
  induction p.globalVisits b with
  | nil => rfl
  | cons pixel pixels ih =>
    rw [List.flatMap_cons, added_append, ih, added_hits, count_hits, hitCount_cons]

/-! ## Slots of the block-local counters -/

/-- Where a bin of a channel lies in the block-local counters. -/
def slot (p : Pass σ) (channel bin : Nat) : Nat := (p.bins.take channel).sum + bin

theorem getElem?_bins {p : Pass σ} {channel : Nat} {m : Mapper σ}
    (hm : p.mappers[channel]? = some m) : p.bins[channel]? = some m.bins := by
  rw [bins, List.getElem?_map, hm]
  rfl

theorem getElem?_offsets {bins : List Nat} {channel : Nat} (h : channel ≤ bins.length) :
    (offsets bins)[channel]? = some (bins.take channel).sum := by
  rw [offsets, List.getElem?_scanl, if_pos h, List.sum_eq_foldl]

theorem start_add {p : Pass σ} {channel : Nat} {m : Mapper σ} (hm : p.mappers[channel]? = some m)
    (bin : Nat) : (offsets p.bins).toArray.getD channel 0 + bin = p.slot channel bin := by
  have hlt := (List.getElem?_eq_some_iff.1 (getElem?_bins hm)).1
  rw [Array.getD_eq_getD_getElem?, List.getElem?_toArray, getElem?_offsets (by omega)]
  rfl

theorem sum_take_succ {bins : List Nat} {channel n : Nat} (h : bins[channel]? = some n) :
    (bins.take (channel + 1)).sum = (bins.take channel).sum + n := by
  rw [List.take_add_one, h, Option.toList_some, List.sum_append, List.sum_singleton]

theorem sum_take_le (bins : List Nat) (channel : Nat) : (bins.take channel).sum ≤ bins.sum := by
  conv => rhs; rw [← List.take_append_drop channel bins, List.sum_append]
  omega

theorem sum_take_mono (bins : List Nat) {channel channel' : Nat} (h : channel ≤ channel') :
    (bins.take channel).sum ≤ (bins.take channel').sum := by
  have := sum_take_le (bins.take channel') channel
  rwa [List.take_take, Nat.min_eq_left h] at this

/-- A channel's slots end before those of every later channel. -/
theorem slot_lt_slot {p : Pass σ} {channel channel' bin : Nat} {m : Mapper σ}
    (hm : p.mappers[channel]? = some m) (hj : bin < m.bins) (h : channel < channel') (bin' : Nat) :
    p.slot channel bin < p.slot channel' bin' := by
  have h1 := sum_take_succ (getElem?_bins hm)
  have h2 := sum_take_mono p.bins (Nat.succ_le_of_lt h)
  simp only [slot, Nat.succ_eq_add_one] at *
  omega

theorem totalBins_eq (p : Pass σ) : p.totalBins = p.bins.sum := List.sum_eq_foldl.symm

theorem slot_lt {p : Pass σ} {channel bin : Nat} {m : Mapper σ}
    (hm : p.mappers[channel]? = some m) (hj : bin < m.bins) : p.slot channel bin < p.totalBins := by
  rw [totalBins_eq]
  have h1 := sum_take_succ (getElem?_bins hm)
  have h2 := sum_take_le p.bins (channel + 1)
  simp only [slot] at *
  omega

/-- The channels do not overlap. -/
theorem slot_inj {p : Pass σ} {channel channel' bin bin' : Nat} {m m' : Mapper σ}
    (hm : p.mappers[channel]? = some m) (hm' : p.mappers[channel']? = some m')
    (hj : bin < m.bins) (hj' : bin' < m'.bins)
    (h : p.slot channel bin = p.slot channel' bin') : channel = channel' ∧ bin = bin' := by
  rcases Nat.lt_trichotomy channel channel' with hlt | rfl | hlt
  · have := slot_lt_slot hm hj hlt bin'
    omega
  · exact ⟨rfl, by simp only [slot] at h; omega⟩
  · have := slot_lt_slot hm' hj' hlt bin
    omega

/-! ## Counting in block-local counters -/

/-- The slots that pixels hit, in order. -/
def slots (p : Pass σ) (pixels : List Pixel) : List Nat :=
  pixels.flatMap fun pixel =>
    (p.hits pixel).map fun (c, j) => (offsets p.bins).toArray.getD c 0 + j

theorem getElem?_foldl_modify (slots : List Nat) (tally : Array (Word .u32)) (i : Nat) :
    (slots.foldl (fun tally s => tally.modify s (·.add (.ofInt 1))) tally)[i]? =
      tally[i]?.map (·.add (.ofInt (slots.count i))) := by
  induction slots generalizing tally with
  | nil => simp
  | cons s slots ih =>
    rw [List.foldl_cons, ih, Array.getElem?_modify, List.count_cons]
    by_cases hs : s = i
    · rw [if_pos hs, Option.map_map]
      congr 1
      funext w
      have := Word.add_add_ofInt w 1 (slots.count i)
      simp only [hs, beq_self_eq_true, if_true, Function.comp_apply]
      rw [Nat.add_comm]
      exact this
    · simp [hs]

theorem tallyOf_eq (p : Pass σ) (pixels : List Pixel) :
    p.tallyOf pixels = (p.slots pixels).foldl (fun tally s => tally.modify s (·.add (.ofInt 1)))
      (Array.replicate p.totalBins .zero) := by
  unfold tallyOf slots
  rw [List.foldl_flatMap]
  congr 1
  funext tally pixel
  rw [tallyPixel, List.foldl_map]

/-- A slot counts the hits of its channel and bin. -/
theorem count_slots {p : Pass σ} {channel bin : Nat} {m : Mapper σ}
    (hm : p.mappers[channel]? = some m) (hj : bin < m.bins) (pixels : List Pixel) :
    (p.slots pixels).count (p.slot channel bin) = p.hitCount channel bin pixels := by
  induction pixels with
  | nil => rfl
  | cons pixel pixels ih =>
    rw [slots, List.flatMap_cons, List.count_append, ← slots, ih, hitCount_cons, ← count_hits]
    congr 1
    rw [List.count, List.countP_map, List.count]
    -- a hit of another channel or bin is in another slot
    refine List.countP_congr fun hit hmem => ?_
    obtain ⟨c, j⟩ := hit
    obtain ⟨m', hm', hj'⟩ := binAt_lt (mem_hits.1 hmem)
    simp only [Function.comp_apply, start_add hm', beq_iff_eq, Prod.mk.injEq]
    constructor
    · exact fun h => slot_inj hm' hm hj' hj h
    · rintro ⟨rfl, rfl⟩
      rfl

theorem getElem?_tallyOf {p : Pass σ} {channel bin : Nat} {m : Mapper σ}
    (hm : p.mappers[channel]? = some m) (hj : bin < m.bins) (pixels : List Pixel) :
    (p.tallyOf pixels)[p.slot channel bin]? = some (.ofInt (p.hitCount channel bin pixels)) := by
  rw [tallyOf_eq, getElem?_foldl_modify, Array.getElem?_replicate, if_pos (slot_lt hm hj),
    count_slots hm hj, Option.map_some, Word.zero_add_ofInt]

/-- Rows without a stride between them hit the same slots. -/
theorem slots_row {p : Pass σ} (hstride : p.region.stride = 0) (columns : List Nat)
    (row row' : Nat) :
    p.slots (columns.map (⟨row, ·⟩)) = p.slots (columns.map (⟨row', ·⟩)) := by
  simp [slots, hits, pixelStart, hstride, List.flatMap_map]

/-- Where rows have no stride between them, the same columns of several rows are one of them as
often as there are rows. -/
theorem tallyOf_rows {p : Pass σ} (hstride : p.region.stride = 0) (columns rows : List Nat)
    (row : Nat) : p.tallyOf (rows.flatMap fun row => columns.map (⟨row, ·⟩)) =
      (p.tallyOf (columns.map (⟨row, ·⟩))).map (·.mul (.ofInt rows.length)) := by
  -- every row hits each slot as often as the one that is read
  have hcount : ∀ i, (p.slots (rows.flatMap fun row => columns.map (⟨row, ·⟩))).count i =
      rows.length * (p.slots (columns.map (⟨row, ·⟩))).count i := by
    intro i
    rw [slots, List.flatMap_assoc, List.count_flatMap]
    show (rows.map fun row => (p.slots (columns.map (⟨row, ·⟩))).count i).sum = _
    simp only [slots_row hstride columns _ row]
    simp
  rw [tallyOf_eq, tallyOf_eq]
  refine Array.ext_getElem? fun i => ?_
  rw [Array.getElem?_map, getElem?_foldl_modify, getElem?_foldl_modify, hcount,
    Array.getElem?_replicate]
  split
  · rw [Option.map_some, Option.map_some, Option.map_some, Word.zero_add_ofInt,
      Word.zero_add_ofInt, Nat.mul_comm]
    simp [Word.mul, Word.ofInt, BitVec.ofInt_mul]
  · rfl

/-- **The block-local counters are those of a walk through all pixels of the block**, also when only
one row is read for all of them. -/
theorem tally_eq (p : Pass σ) (b : Block) : p.tally b = p.tallyOf (p.privatizedVisits b) := by
  unfold tally
  split
  · rename_i hstride
    have h := tallyOf_rows hstride (p.rowColumns b) (strided b.index.y p.region.rows b.grid.y)
      b.index.y
    simp only [← rowVisits_eq_map] at h
    rw [privatizedVisits, h, strided, List.length_range']
  · rfl

/-- **A block-local counter** holds how many of the block's pixels fall into its bin, modulo
`2 ^ 32`. -/
theorem getElem?_tally {p : Pass σ} {channel bin : Nat} {m : Mapper σ}
    (hm : p.mappers[channel]? = some m) (hj : bin < m.bins) (b : Block) :
    (p.tally b)[p.slot channel bin]? =
      some (.ofInt (p.hitCount channel bin (p.privatizedVisits b))) := by
  rw [tally_eq, getElem?_tallyOf hm hj]

/-! ## Adding block-local counters up -/

/-- What is added up at the end is added to bins. -/
theorem mem_flush {bins : List Nat} {size : Nat} {tally : Array (Word .u32)} {op : CounterOp}
    (h : op ∈ flush bins size tally) : ∃ channel n, bins[channel]? = some n ∧
      ∃ bin < n, ∃ count, op = .add channel bin count := by
  simp only [flush, List.mem_flatMap, List.mem_range, List.mem_filterMap] at h
  obtain ⟨lane, hlane, ⟨⟨n, start⟩, channel⟩, hentry, bin, hbin, h⟩ := h
  rw [List.mem_zipIdx_iff_getElem?] at hentry
  obtain ⟨hn, -⟩ := List.getElem?_zip_eq_some.1 hentry
  obtain ⟨_, -, hlt⟩ := (mem_strided (Nat.lt_of_le_of_lt (Nat.zero_le _) hlane)).1 hbin
  unfold flushBin at h
  dsimp only at h
  split at h
  · cases h
  · exact ⟨channel, n, hn, bin, hlt, _, (Option.some.inj h).symm⟩

theorem opsOn_flushBin (tally : Array (Word .u32)) (channel start bin c j : Nat) :
    opsOn (flushBin tally channel start bin).toList c j =
      if channel = c ∧ bin = j then (flushBin tally channel start bin).toList else [] := by
  unfold flushBin
  dsimp only
  by_cases hz : tally.getD (start + bin) .zero = .zero
  · rw [if_pos hz]
    simp [opsOn]
  · rw [if_neg hz, Option.toList_some, opsOn, List.filter_singleton]
    exact Bool.cond_decide ..

/-- The bins of a channel, added one after another. -/
theorem opsOn_flushBins (tally : Array (Word .u32)) (channel start c j : Nat) :
    ∀ bins, opsOn ((List.range bins).filterMap (flushBin tally channel start)) c j =
      if channel = c ∧ j < bins then (flushBin tally channel start j).toList else []
  | 0 => by simp [opsOn]
  | bins + 1 => by
    have hlast : [bins].filterMap (flushBin tally channel start) =
        (flushBin tally channel start bins).toList := by
      cases h : flushBin tally channel start bins <;> simp [h]
    rw [List.range_succ, List.filterMap_append, opsOn_append, hlast, opsOn_flushBin,
      opsOn_flushBins tally channel start c j bins]
    by_cases hc : channel = c
    · rcases Nat.lt_trichotomy j bins with h | rfl | h
      · rw [if_pos ⟨hc, h⟩, if_neg (by omega), if_pos ⟨hc, by omega⟩, List.append_nil]
      · rw [if_neg (by omega), if_pos ⟨hc, rfl⟩, if_pos ⟨hc, by omega⟩, List.nil_append]
      · rw [if_neg (by omega), if_neg (by omega), if_neg (by omega), List.append_nil]
    · simp [hc]

/-- A walk through numbered things of which one number counts. -/
theorem flatMap_zipIdx {α β : Type} {f : α × Nat → List β} {c : Nat}
    (hf : ∀ a i, i ≠ c → f (a, i) = []) :
    ∀ (l : List α) (n : Nat), (l.zipIdx n).flatMap f =
      if n ≤ c then (l[c - n]?.map fun a => f (a, c)).getD [] else []
  | [], n => by simp
  | a :: l, n => by
    rw [List.zipIdx_cons, List.flatMap_cons, flatMap_zipIdx hf l (n + 1)]
    rcases Nat.lt_trichotomy n c with h | rfl | h
    · rw [hf a n (by omega), if_pos (by omega), if_pos (by omega), List.nil_append,
        show c - n = c - (n + 1) + 1 by omega, List.getElem?_cons_succ]
    · rw [if_neg (by omega), if_pos (by omega), Nat.sub_self, List.append_nil]
      rfl
    · rw [hf a n (by omega), if_neg (by omega), if_neg (by omega)]
      rfl

/-- The lanes of a block share out the bins of every channel. -/
theorem flush_perm (bins : List Nat) (tally : Array (Word .u32)) {size : Nat} (hs : 0 < size) :
    flush bins size tally ~ (bins.zip (offsets bins)).zipIdx.flatMap fun ((bins, start), channel) =>
      (List.range bins).filterMap (flushBin tally channel start) := by
  unfold flush
  refine (flatMap_swap_perm _ _ _).trans (.flatMap_left _ fun entry _ => ?_)
  rw [← List.filterMap_flatMap]
  exact (strided_perm _ hs).filterMap _

theorem eq_toList_of_perm {β : Type} {l : List β} : ∀ {x : Option β}, l ~ x.toList → l = x.toList
  | none, h => List.perm_nil.1 h
  | some _, h => List.perm_singleton.1 h

/-- A channel's bin is added by one of the lanes, and once. -/
theorem opsOn_flush (p : Pass σ) {size : Nat} (hs : 0 < size) (tally : Array (Word .u32))
    (channel bin : Nat) :
    opsOn (flush p.bins size tally) channel bin = (p.mappers[channel]?.bind fun m =>
      if bin < m.bins then flushBin tally channel (p.bins.take channel).sum bin
      else none).toList := by
  -- on one counter there is one operation at most, so that the order of the lanes is lost
  refine eq_toList_of_perm ((opsOn_perm (flush_perm p.bins tally hs) channel bin).trans (.of_eq ?_))
  rw [opsOn_flatMap]
  simp only [opsOn_flushBins]
  rw [flatMap_zipIdx (c := channel) (fun _ i hi => if_neg fun h => hi h.1), if_pos (Nat.zero_le _),
    Nat.sub_zero]
  cases hm : p.mappers[channel]? with
  | none =>
    have hbins : p.bins[channel]? = none := by rw [bins, List.getElem?_map, hm]; rfl
    rw [List.getElem?_eq_none]
    · rfl
    · have := List.getElem?_eq_none_iff.1 hbins
      rw [List.length_zip]
      omega
  | some m =>
    have hlt := (List.getElem?_eq_some_iff.1 (getElem?_bins hm)).1
    have hentry : (p.bins.zip (offsets p.bins))[channel]? =
        some (m.bins, (p.bins.take channel).sum) :=
      List.getElem?_zip_eq_some.2 ⟨getElem?_bins hm, getElem?_offsets (by omega)⟩
    rw [hentry, Option.map_some, Option.getD_some, Option.bind_some]
    simp only [true_and]
    split <;> rfl

/-- What is added for a bin whose block-local counter holds a number of pixels. -/
theorem flushBin_tally {p : Pass σ} {channel bin : Nat} {m : Mapper σ}
    (hm : p.mappers[channel]? = some m) (hj : bin < m.bins) (b : Block) :
    flushBin (p.tally b) channel (p.bins.take channel).sum bin =
      if p.hitCount channel bin (p.privatizedVisits b) % 2 ^ 32 = 0 then none
      else some (.add channel bin (.ofInt (p.hitCount channel bin (p.privatizedVisits b)))) := by
  have hcount : (p.tally b).getD ((p.bins.take channel).sum + bin) .zero =
      .ofInt (p.hitCount channel bin (p.privatizedVisits b)) := by
    have hslot := getElem?_tally hm hj b
    rw [slot] at hslot
    rw [Array.getD_eq_getD_getElem?, hslot, Option.getD_some]
  unfold flushBin
  dsimp only
  rw [hcount]
  exact if_congr Word.ofInt_natCast_eq_zero rfl rfl

/-- A block without lanes reads nothing and adds nothing. -/
theorem privatized_of_no_lanes (p : Pass σ) {b : Block} (hs : b.size = 0) :
    (p.privatized b).ops = [] ∧ p.privatizedVisits b = [] := by
  constructor
  · rw [privatized, flush, hs]
    rfl
  · simp [privatizedVisits, rowVisits, tileVisits, hs]

/-- **A block that counts in counters of its own** adds to a counter once, unless the block-local
one is back at zero. -/
theorem opsOn_privatized (p : Pass σ) (b : Block) (channel bin : Nat) :
    opsOn (p.privatized b).ops channel bin =
      if p.hitCount channel bin (p.privatizedVisits b) % 2 ^ 32 = 0 then []
      else [.add channel bin (.ofInt (p.hitCount channel bin (p.privatizedVisits b)))] := by
  rcases Nat.eq_zero_or_pos b.size with hs | hs
  · obtain ⟨hops, hvisits⟩ := p.privatized_of_no_lanes hs
    rw [hops, hvisits]
    rfl
  unfold privatized
  dsimp only
  rw [opsOn_flush p hs]
  cases hm : p.mappers[channel]? with
  | none =>
    rw [hitCount_eq_zero fun m hm' => by rw [hm] at hm'; cases hm']
    rfl
  | some m =>
    rw [Option.bind_some]
    split
    · rename_i hj
      rw [flushBin_tally hm hj]
      split <;> rfl
    · rename_i hj
      have hnone : ∀ m', p.mappers[channel]? = some m' → m'.bins ≤ bin := by
        intro m' hm'
        cases hm.symm.trans hm'
        omega
      rw [hitCount_eq_zero hnone]
      rfl

/-- What it adds are its hits modulo `2 ^ 32`. -/
theorem added_privatized (p : Pass σ) (b : Block) (channel bin : Nat) :
    added (p.privatized b).ops channel bin =
      p.hitCount channel bin (p.privatizedVisits b) % 2 ^ 32 := by
  rw [← added_opsOn, opsOn_privatized]
  split
  · rename_i hzero
    rw [hzero, added_nil]
  · rw [added_cons, added_nil, CounterOp.amount, if_pos ⟨rfl, rfl⟩, Word.ofInt_natCast,
      BitVec.toNat_ofNat]
    rfl

end Pass

end LaneGrid
