import Mathlib
import LaneGrid.Scan.Session
import LaneGrid.Proofs.Scan.Blocked
import LaneGrid.Proofs.Scan.Slots

/-!
# Scans one after another

`session_law`: in any run of scans on shared blocks and storages, whatever plans, methods and
lengths they mix, a scan is refused exactly when its shape is wrong, and then changes nothing. Any
other one gives what it gives on a block and a storage of its own, passes two barriers of its block,
leaves its own slots and nothing else in its storage, and changes no other block or storage
(`ScanStep.Scans`).

So at the end of a run a block has passed two barriers for every scan that was accepted on it
(`blocks_after`), and a storage holds the slots of the last one (`storages_after`).
-/

namespace LaneGrid

variable {α : Type} {b s : Nat}

/-! ## Runs -/

namespace Session

/-- The session after some steps. -/
def after (session : Session α b s) (steps : List (ScanStep α b s)) : Session α b s :=
  steps.foldl (fun session t => (session.step t).1) session

theorem after_concat (session : Session α b s) (steps : List (ScanStep α b s))
    (t : ScanStep α b s) :
    session.after (steps ++ [t]) = ((session.after steps).step t).1 := by
  rw [after, List.foldl_append]
  rfl

theorem length_run : ∀ (session : Session α b s) (steps : List (ScanStep α b s)),
    (session.run steps).length = steps.length
  | _, [] => rfl
  | session, t :: steps => congrArg (· + 1) (length_run (session.step t).1 steps)

/-- A step of a run starts where the steps before it end. -/
theorem getElem?_run : ∀ (session : Session α b s) (steps : List (ScanStep α b s)) (i : Nat),
    (session.run steps)[i]? = steps[i]?.map (session.after (steps.take i)).step
  | _, [], i => by simp [run]
  | session, t :: steps, 0 => by simp [run, after]
  | session, t :: steps, i + 1 => getElem?_run (session.step t).1 steps i

end Session

/-! ## One scan -/

namespace ScanStep

variable (t : ScanStep α b s)

/-- The step's block, input and output have the shape that its method asks for. -/
def Accepted (session : Session α b s) : Prop :=
  t.scan.Accepts t.method (session.block t.block).size t.input.length t.outputLength

instance (session : Session α b s) : Decidable (t.Accepted session) :=
  inferInstanceAs (Decidable (t.scan.Accepts ..))

/-- What a scan that is not refused gives and does. -/
structure Scans (before after : Session α b s) (r : Scanned α) : Prop where
  /-- The output and the total are those of a scan on a block and a storage of its own. -/
  fresh : t.scan.scan t.method t.op t.input t.outputLength = .ok r
  block : after.block t.block =
    { before.block t.block with barriers := (before.block t.block).barriers + 2 }
  storage : (after.storage t.storage).slots = r.slots
  length_slots : r.slots.length = t.scan.groups
  /-- A slot holds the lanes up to the end of its group. -/
  slot : (∀ x y z, t.op (t.op x y) z = t.op x (t.op y z)) → ∀ group < t.scan.groups,
    r.slots[group]? = Sequential.total? t.op (t.scan.valuesThrough t.input group)
  other_blocks : ∀ j ≠ t.block, after.block j = before.block j
  other_storages : ∀ j ≠ t.storage, after.storage j = before.storage j

/-- What one step does, whatever its block and its storage were used for before. -/
structure Law (before after : Session α b s) (result : Except ShapeError (Scanned α)) : Prop where
  scans : t.Accepted before → ∃ r, result = .ok r ∧ t.Scans before after r
  refuses : ¬t.Accepted before → (∃ e, result = .error e) ∧ after = before

variable {t} {session : Session α b s}

theorem step_of_accepted (h : t.Accepted session) :
    session.step t =
      (session.put t.block t.storage
        ⟨(session.block t.block).sync.sync, ⟨(t.scan.run t.method t.op t.input).slots⟩⟩,
        .ok (t.scan.run t.method t.op t.input)) := by
  rw [Session.step, t.scan.scanOn_run, t.scan.check_ok_iff.2 h]
  rfl

theorem step_of_not_accepted (h : ¬t.Accepted session) :
    ∃ e, session.step t = (session, .error e) := by
  rw [Session.step, t.scan.scanOn_run]
  cases hcheck : t.scan.check t.method (session.block t.block).size t.input.length
      t.outputLength with
  | error e =>
    refine ⟨e, ?_⟩
    simp only [Shared.outcome, Session.put_self]
  | ok => exact absurd (t.scan.check_ok_iff.1 hcheck) h

theorem law (t : ScanStep α b s) (session : Session α b s) :
    t.Law session (session.step t).1 (session.step t).2 := by
  constructor
  · intro h
    obtain ⟨-, houtput, items, hfits⟩ := ScanPlan.Accepts.fits _ h
    rw [step_of_accepted h]
    refine ⟨_, rfl, ?_⟩
    exact
      { fresh := by rw [houtput]; exact hfits.scan_ok t.op
        block := Session.block_put
        storage := congrArg Storage.slots Session.storage_put
        length_slots := t.scan.length_slots_run hfits
        slot := fun hassoc group => t.scan.getElem?_slots_of_assoc hassoc hfits
        other_blocks := fun j => Session.block_put_of_ne
        other_storages := fun j => Session.storage_put_of_ne }
  · intro h
    obtain ⟨e, he⟩ := step_of_not_accepted h
    rw [he]
    exact ⟨⟨e, rfl⟩, rfl⟩

end ScanStep

/-! ## Sessions -/

/-- **Every scan of a session obeys the law**, whatever the steps before it were. -/
theorem session_law (session : Session α b s) (steps : List (ScanStep α b s)) :
    (session.run steps).length = steps.length ∧
    ∀ i t, steps[i]? = some t → ∃ result,
      (session.run steps)[i]? = some (session.after (steps.take (i + 1)), result) ∧
      t.Law (session.after (steps.take i)) (session.after (steps.take (i + 1))) result := by
  refine ⟨Session.length_run session steps, fun i t ht => ?_⟩
  have hafter : session.after (steps.take (i + 1)) = ((session.after (steps.take i)).step t).1 := by
    rw [List.take_add_one, ht, Option.toList_some, Session.after_concat]
  refine ⟨((session.after (steps.take i)).step t).2, ?_, ?_⟩
  · rw [Session.getElem?_run, ht, hafter]
    rfl
  · rw [hafter]
    exact t.law _

/-- Blocks of seven and of three lanes, and one storage for both. -/
def twoBlocks : Session (List Nat) 2 1 := .start #v[.standalone 7, .standalone 3]

/-- The three lanes, after the seven, on the same storage. -/
def pairsStep : ScanStep (List Nat) 2 1 :=
  ⟨threeLanes, 1, 0, .inclusiveBlocked, (· ++ ·), threePairs, 6⟩

/-- The last step scans three lanes on the block of seven. -/
def mixedSteps : List (ScanStep (List Nat) 2 1) :=
  [⟨sevenLanes, 0, 0, .exclusive [9], (· ++ ·), [[0], [1], [2, 2], [], [4], [5], [6]], 7⟩,
    pairsStep, { pairsStep with block := 0 }]

theorem session_law_mixed :
    mixedSteps[1]? = some pairsStep ∧
    (∃ result, (twoBlocks.run mixedSteps)[1]? =
        some (twoBlocks.after (mixedSteps.take 2), result) ∧
      pairsStep.Law (twoBlocks.after (mixedSteps.take 1)) (twoBlocks.after (mixedSteps.take 2))
        result) ∧
    ((twoBlocks.after mixedSteps).storage 0).slots = [[0, 1, 2, 2], [0, 1, 2, 2, 4, 5]] ∧
    (twoBlocks.after mixedSteps).blocks.map (·.barriers) = #v[2, 2] :=
  ⟨rfl, (session_law twoBlocks mixedSteps).2 1 pairsStep rfl, by cbv, by cbv⟩

/-! ## Whole sessions -/

namespace Session

variable (session : Session α b s) (steps : List (ScanStep α b s))

/-- Blocks keep their sizes. -/
theorem size_after (j : Fin b) : ((session.after steps).block j).size = (session.block j).size := by
  induction steps using List.reverseRecOn with
  | nil => rfl
  | append_singleton steps t ih =>
    rw [after_concat, ← ih]
    have hlaw := t.law (session.after steps)
    by_cases haccepted : t.Accepted (session.after steps)
    · obtain ⟨r, -, hscans⟩ := hlaw.scans haccepted
      by_cases hj : j = t.block
      · rw [hj, hscans.block]
      · rw [hscans.other_blocks j hj]
    · rw [(hlaw.refuses haccepted).2]

/-- Whether a scan is refused does not depend on the scans before it. -/
theorem accepted_after (t : ScanStep α b s) :
    t.Accepted (session.after steps) ↔ t.Accepted session := by
  rw [ScanStep.Accepted, size_after]
  rfl

/-- **A block passes two barriers for every scan that is accepted on it.** -/
theorem blocks_after (j : Fin b) : (session.after steps).block j =
    { session.block j with
      barriers := (session.block j).barriers +
        2 * steps.countP fun t => t.block = j ∧ t.Accepted session } := by
  induction steps using List.reverseRecOn with
  | nil => rfl
  | append_singleton steps t ih =>
    rw [after_concat, List.countP_append, List.countP_singleton]
    have hlaw := t.law (session.after steps)
    by_cases haccepted : t.Accepted (session.after steps)
    · obtain ⟨r, -, hscans⟩ := hlaw.scans haccepted
      rw [accepted_after] at haccepted
      by_cases hj : t.block = j
      · subst hj
        rw [hscans.block, ih]
        simp [haccepted, Nat.mul_add, Nat.add_assoc]
      · rw [hscans.other_blocks j (Ne.symm hj), ih]
        simp [hj]
    · rw [(hlaw.refuses haccepted).2, ih]
      rw [accepted_after] at haccepted
      simp [haccepted]

/-- **A storage holds the slots of the last scan that is accepted on it.** -/
theorem storages_after (j : Fin s) : ((session.after steps).storage j).slots =
    match steps.reverse.find? fun t => t.storage = j ∧ t.Accepted session with
    | none => (session.storage j).slots
    | some t => (t.scan.run t.method t.op t.input).slots := by
  induction steps using List.reverseRecOn with
  | nil => rfl
  | append_singleton steps t ih =>
    rw [after_concat, List.reverse_append, List.reverse_singleton, List.singleton_append,
      List.find?_cons]
    by_cases haccepted : t.Accepted (session.after steps)
    · have hstep := ScanStep.step_of_accepted haccepted
      rw [accepted_after] at haccepted
      by_cases hj : t.storage = j
      · subst hj
        simp [hstep, haccepted]
      · obtain ⟨r, -, hscans⟩ := (t.law _).scans ((accepted_after session steps t).2 haccepted)
        rw [hscans.other_storages j (Ne.symm hj), ih]
        simp [hj]
    · rw [((t.law _).refuses haccepted).2, ih]
      rw [accepted_after] at haccepted
      simp [haccepted]

end Session

end LaneGrid
