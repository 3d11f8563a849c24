import LaneGrid.Scan.Phases
import LaneGrid.Proofs.Scan.Words

/-!
# Scans on a running block are scans

`scanOn_run`: a scan on a running block and a storage that may have been used before leaves the same
as the scan of its input alone. If the check of its shape fails, the block and the storage are as
they were; otherwise the block has passed two barriers, and the storage holds the scan's slots and
nothing else.

`check_ok_iff` says which shapes are accepted (`ScanPlan.Accepts`), and `Fits.scan_ok` that an input
of such a shape is scanned.
-/

namespace LaneGrid

variable {α : Type}

/-- The outcome of a scan that changes nothing if its check fails, and otherwise passes two barriers
and leaves its slots. -/
def Shared.outcome (state : Shared α) (check : Except ShapeError Unit) (scanned : Scanned α) :
    Except ShapeError (Scanned α) × Shared α :=
  match check with
  | .error e => (.error e, state)
  | .ok _ => (.ok scanned, ⟨state.block.sync.sync, ⟨scanned.slots⟩⟩)

namespace SharedScan

variable {β γ : Type} {state : Shared α}

/-- What runs after a computation that was not refused. -/
theorem run_bind (x : SharedScan α β) (f : β → SharedScan α γ) :
    (x >>= f).run.run state =
      match x.run.run state with
      | (.ok b, state') => (f b).run.run state'
      | (.error e, state') => (.error e, state') := by
  rw [ExceptT.run_bind, StateT.run_bind]
  rcases x.run.run state with ⟨_ | _, _⟩ <;> rfl

theorem run_get : (get : SharedScan α (Shared α)).run.run state = (.ok state, state) := rfl

theorem run_ofExcept (x : Except ShapeError β) :
    (ofExcept x : SharedScan α β).run.run state = (x, state) := by
  cases x <;> rfl

end SharedScan

namespace ScanPlan

variable (s : ScanPlan)

/-! ## Shapes -/

/-- The first rule that a block of `block` lanes, `input` values and room for `output` break. With
several values per lane, the lanes' own values are scanned as one value per lane. -/
def check (m : ScanMethod α) (block input output : Nat) : Except ShapeError Unit :=
  if m.isBlocked then do
    s.checkItems input output
    s.checkFlat block s.blockSize s.blockSize
  else s.checkFlat block input output

/-- The block, the input and the output have the shape that a method asks for. -/
def Accepts (m : ScanMethod α) (block input output : Nat) : Prop :=
  match m.isBlocked with
  | false => block = s.blockSize ∧ input = s.blockSize ∧ output = s.blockSize
  | true => input = output ∧ (0 < input ∧ s.blockSize ∣ input) ∧ block = s.blockSize

theorem checkFlat_ok_iff {block input output : Nat} :
    s.checkFlat block input output = .ok () ↔
      block = s.blockSize ∧ input = s.blockSize ∧ output = s.blockSize := by
  unfold checkFlat
  split_ifs <;> simp_all

theorem checkItems_ok_iff {input output : Nat} : s.checkItems input output = .ok () ↔
    input = output ∧ 0 < input ∧ s.blockSize ∣ input := by
  have hpos := s.blockSize_pos
  have hle : 0 < input ∧ s.blockSize ∣ input ↔
      ¬(input < s.blockSize ∨ input % s.blockSize ≠ 0) := by
    rw [not_or, not_not, ← Nat.dvd_iff_mod_eq_zero, Nat.not_lt]
    exact and_congr_left fun hdvd => ⟨fun h => Nat.le_of_dvd h hdvd, fun h => by omega⟩
  unfold checkItems
  rw [hle]
  split_ifs <;> simp_all

theorem check_ok_iff {m : ScanMethod α} {block input output : Nat} :
    s.check m block input output = .ok () ↔ s.Accepts m block input output := by
  unfold check Accepts
  cases m.isBlocked with
  | false => exact s.checkFlat_ok_iff
  | true =>
    rw [if_pos rfl]
    constructor
    · intro h
      obtain ⟨_, hitems, hflat⟩ := bind_ok h
      obtain ⟨heq, hitems⟩ := s.checkItems_ok_iff.1 hitems
      exact ⟨heq, hitems, (s.checkFlat_ok_iff.1 hflat).1⟩
    · rintro ⟨heq, hitems, hblock⟩
      rw [s.checkItems_ok_iff.2 ⟨heq, hitems⟩]
      exact s.checkFlat_ok_iff.2 ⟨hblock, rfl, rfl⟩

instance {m : ScanMethod α} {block input output : Nat} :
    Decidable (s.Accepts m block input output) :=
  decidable_of_iff _ s.check_ok_iff

/-- An accepted input is one or several values for every lane, and fits the output. -/
theorem Accepts.fits {m : ScanMethod α} {block input output : Nat}
    (h : s.Accepts m block input output) :
    block = s.blockSize ∧ output = input ∧ ∃ items, s.Fits m items input := by
  unfold Accepts at h
  cases hm : m.isBlocked with
  | false =>
    rw [hm] at h
    obtain ⟨hblock, rfl, rfl⟩ := h
    exact ⟨hblock, rfl, 1, Nat.one_pos, fun _ => rfl, (Nat.mul_one _).symm⟩
  | true =>
    rw [hm] at h
    obtain ⟨rfl, ⟨hpos, items, rfl⟩, hblock⟩ := h
    refine ⟨hblock, rfl, items, Nat.pos_of_mul_pos_left hpos, fun hflat => ?_, rfl⟩
    rw [hm] at hflat
    cases hflat

/-! ## Phases -/

theorem foldl_updateSlots (f : Nat → List α → List α) : ∀ (lanes : List Nat) (state : Shared α),
    lanes.foldl (fun state lane => state.updateSlots (f lane)) state =
      state.updateSlots fun slots => lanes.foldl (fun slots lane => f lane slots) slots
  | [], _ => rfl
  | lane :: lanes, state => by
    rw [List.foldl_cons, foldl_updateSlots f lanes]
    rfl

/-- The lanes leave their values one after another. -/
theorem foldl_publishLane (values : Array α) : ∀ (lanes : List Nat) (slots : List α),
    lanes.foldl (fun slots lane => s.publishLane values lane slots) slots =
      slots ++ (lanes.filter fun lane =>
        lane + 1 = min ((lane / s.groupSize + 1) * s.groupSize) s.blockSize).filterMap (values[·]?)
  | [], slots => (List.append_nil slots).symm
  | lane :: lanes, slots => by
    rw [List.foldl_cons, foldl_publishLane values lanes, publishLane, List.filter_cons]
    by_cases hlast : lane + 1 = min ((lane / s.groupSize + 1) * s.groupSize) s.blockSize
    · rw [if_pos hlast, if_pos (decide_eq_true hlast), List.append_assoc, List.filterMap_cons]
      cases values[lane]? <;> rfl
    · rw [if_neg hlast, if_neg (by simpa using hlast)]

theorem publish_eq {scanned : List (List α)} {state : Shared α}
    (hsize : state.block.size = s.blockSize) :
    s.publish scanned state = ⟨state.block.sync, ⟨s.published scanned⟩⟩ := by
  unfold publish
  dsimp only
  rw [foldl_updateSlots, published, publishers, ← hsize]
  unfold Shared.updateSlots Shared.sync Block.lanes
  dsimp only
  rw [foldl_publishLane, List.nil_append, hsize]

theorem slots_phases (op : α → α → α) {scanned : List (List α)} {state : Shared α}
    (hsize : state.block.size = s.blockSize) (hlanes : scanned.flatten.length = s.blockSize) :
    s.scanSlots op (s.publish scanned state) =
      ⟨state.block.sync.sync, ⟨s.slots op scanned⟩⟩ := by
  rw [s.publish_eq hsize, scanSlots]
  unfold Shared.updateSlots Shared.sync slots
  dsimp only
  rw [List.take_of_length_le (s.length_published hlanes).le,
    List.drop_of_length_le (s.length_published hlanes).le, List.append_nil]

/-! ## Scans -/

variable {op : α → α → α} {input : List α} {outputLength : Nat} {state : Shared α}

theorem checkFlat_run {lanes : Nat} : ((s.phasesOn op).checkFlat lanes outputLength).run.run state =
    (s.checkFlat state.block.size lanes outputLength, state) := by
  unfold phasesOn
  dsimp only
  rw [SharedScan.run_bind, SharedScan.run_get]
  exact SharedScan.run_ofExcept _

theorem checkItems_run {length : Nat} :
    ((s.phasesOn op).checkItems length outputLength).run.run state =
      (s.checkItems length outputLength, state) :=
  SharedScan.run_ofExcept _

theorem scanLanes_run (finish : Option α → List α → List α) :
    (s.scanLanes (s.phasesOn op) finish input outputLength).run.run state =
      state.outcome (s.checkFlat state.block.size input.length outputLength)
        (s.lanes op finish input) := by
  rw [scanLanes_of_groups fun _ _ => rfl, SharedScan.run_bind, checkFlat_run]
  cases hcheck : s.checkFlat state.block.size input.length outputLength with
  | error e => rfl
  | ok =>
    obtain ⟨hsize, hinput, -⟩ := s.checkFlat_ok_iff.1 hcheck
    have hlanes : (s.scanGroups op input).flatten.length = s.blockSize := by
      rw [length_flatten_scanGroups, hinput]
    let finished (shared : Shared α) : Except ShapeError (Scanned α) × Shared α :=
      (.ok (finishGroups finish (s.scanGroups op input) shared.storage.slots), shared)
    exact congrArg finished (s.slots_phases op hsize hlanes)

/-- **A scan on a running block is the scan of its input.** -/
theorem scanOn_run (m : ScanMethod α) :
    (s.scanOn m op input outputLength).run.run state =
      state.outcome (s.check m state.block.size input.length outputLength) (s.run m op input) := by
  unfold scanOn scanWith check
  cases hm : m.isBlocked with
  | false =>
    rw [run_of_flat hm]
    exact s.scanLanes_run _
  | true =>
    rw [run_of_blocked hm, if_pos rfl, if_pos rfl, SharedScan.run_bind, checkItems_run]
    cases hitems : s.checkItems input.length outputLength with
    | error e => rfl
    | ok =>
      obtain ⟨-, hpos, items, hlength⟩ := s.checkItems_ok_iff.1 hitems
      have hlanes : (s.reductions op input).length = s.blockSize :=
        s.length_reductions (Nat.pos_of_mul_pos_left (hlength ▸ hpos)) hlength
      dsimp only
      rw [SharedScan.run_bind, scanLanes_run, hlanes]
      cases s.checkFlat state.block.size s.blockSize s.blockSize <;> rfl

/-- An input that fits is scanned. -/
theorem Fits.scan_ok {s : ScanPlan} {m : ScanMethod α} {items : Nat}
    (h : s.Fits m items input.length) (op : α → α → α) :
    s.scan m op input input.length = .ok (s.run m op input) := by
  have hcheck : s.check m s.blockSize input.length input.length = .ok () := by
    refine s.check_ok_iff.2 ?_
    unfold Accepts
    cases hm : m.isBlocked with
    | false => exact ⟨rfl, h.length_flat hm, h.length_flat hm⟩
    | true =>
      have hpos := Nat.mul_pos s.blockSize_pos h.items_pos
      exact ⟨rfl, ⟨h.length_eq ▸ hpos, items, h.length_eq⟩, rfl⟩
  rw [scan, scanOn_run]
  exact congrArg (fun check => (Shared.outcome _ check _).1) hcheck

end ScanPlan

end LaneGrid
