import LaneGrid.Proofs.Scan.Associative

/-!
# Scans of several values per lane

With an associative operator, a blocked scan leaves one walk along the whole input, lane after lane,
and its total is the whole input without a seed (`blocked_of_assoc`).

An unseeded scan of the lanes' reductions leaves a value in lane 0 that stands for nothing.
`ScanPlan.runOver` puts any other scan in its place, and one that differs in lane 0 only
(`Scanned.AgreesAbove`) changes no blocked scan (`runOver_of_agreesAbove`).
-/

namespace LaneGrid

variable {α : Type} {op : α → α → α}

/-- The same slots, and the same values in every lane but lane 0. -/
def Scanned.AgreesAbove (r r' : Scanned α) : Prop :=
  r.slots = r'.slots ∧ ∀ lane, 0 < lane → r.output[lane]? = r'.output[lane]?

theorem Scanned.AgreesAbove.tail_eq {r r' : Scanned α} (h : r.AgreesAbove r') :
    r.output.tail = r'.output.tail := by
  apply List.ext_getElem?
  intro i
  rw [List.getElem?_tail, List.getElem?_tail]
  exact h.2 (i + 1) (Nat.succ_pos i)

namespace ScanPlan

variable (s : ScanPlan)

/-- The methods, with `unseeded` in the place of the plan's own unseeded scan. -/
def runOver (unseeded : (α → α → α) → List α → Scanned α) (m : ScanMethod α) (op : α → α → α)
    (input : List α) : Scanned α :=
  match m with
  | .unseeded => unseeded op input
  | .inclusiveBlocked =>
    s.expandLanes .inclusiveBlocked op input (unseeded op (s.reductions op input))
  | m => s.run m op input

/-- The plan's own unseeded scan is what the methods run over. -/
theorem runOver_unseeded (m : ScanMethod α) (op : α → α → α) (input : List α) :
    s.runOver s.unseeded m op input = s.run m op input := by
  cases m with
  | inclusiveBlocked =>
    have hlanes : s.unseeded op (s.reductions op input) = _ := run_of_flat rfl _
    have hrun : s.run .inclusiveBlocked op input = _ := run_of_blocked rfl input
    rw [hrun, runOver, hlanes]
    rfl
  | _ => rfl

theorem runOver_of_agreesAbove {unseeded : (α → α → α) → List α → Scanned α}
    (h : ∀ lanes, (unseeded op lanes).AgreesAbove (s.unseeded op lanes)) {m : ScanMethod α}
    (hm : m.isBlocked = true) (input : List α) :
    s.runOver unseeded m op input = s.run m op input := by
  rw [← runOver_unseeded]
  cases m with
  | inclusiveBlocked =>
    have hlanes := h (s.reductions op input)
    unfold runOver expandLanes ScanMethod.expand
    dsimp only
    rw [hlanes.1, inclusiveItems, inclusiveItems, hlanes.tail_eq]
  | exclusiveBlocked init => rfl
  | inclusive => cases hm
  | exclusive => cases hm
  | unseeded => cases hm

/-- The unseeded scan with another value in lane 0. -/
def unseededLeaving (lane0 : α) (op : α → α → α) (input : List α) : Scanned α :=
  let scanned := s.unseeded op input
  { scanned with output := scanned.output.set 0 lane0 }

theorem agreesAbove_unseededLeaving (lane0 : α) (input : List α) :
    (s.unseededLeaving lane0 op input).AgreesAbove (s.unseeded op input) := by
  refine ⟨rfl, ?_⟩
  intro lane hpos
  exact List.getElem?_set_ne (by omega)

end ScanPlan

/-- **Blocked scans are sequential scans** of the whole input for every associative operator, and
nothing that an unseeded scan leaves in lane 0 reaches them. -/
theorem blocked_of_assoc (hassoc : ∀ a b c, op (op a b) c = op a (op b c)) (s : ScanPlan)
    {items : Nat} (hitems : 0 < items) {input : List α} (h : input.length = s.blockSize * items) :
    (∃ r, s.scan .inclusiveBlocked op input input.length = .ok r ∧
      r.output = Sequential.inclusive op input ∧ r.total = Sequential.total? op input ∧
      ∀ unseeded, (∀ lanes, (unseeded op lanes).AgreesAbove (s.unseeded op lanes)) →
        s.runOver unseeded .inclusiveBlocked op input = r) ∧
    ∀ init, ∃ r, s.scan (.exclusiveBlocked init) op input input.length = .ok r ∧
      r.output = Sequential.exclusive op init input ∧ r.total = Sequential.total? op input ∧
      ∀ unseeded, (∀ lanes, (unseeded op lanes).AgreesAbove (s.unseeded op lanes)) →
        s.runOver unseeded (.exclusiveBlocked init) op input = r := by
  have hblocked : ∀ m : ScanMethod α, m.isBlocked = true →
      ∃ r, s.scan m op input input.length = .ok r ∧ r.output = m.sequential op input ∧
        r.total = Sequential.total? op input ∧
        ∀ unseeded, (∀ lanes, (unseeded op lanes).AgreesAbove (s.unseeded op lanes)) →
          s.runOver unseeded m op input = r := by
    intro m hm
    have hfits : s.Fits m items input.length := by
      refine ⟨hitems, ?_, h⟩
      intro hflat
      rw [hm] at hflat
      cases hflat
    refine ⟨s.run m op input, hfits.scan_ok op, output_of_assoc hassoc hfits,
      total_of_assoc hassoc hfits, ?_⟩
    intro unseeded hunseeded
    exact s.runOver_of_agreesAbove hunseeded hm input
  refine ⟨hblocked .inclusiveBlocked rfl, ?_⟩
  intro init
  exact hblocked (.exclusiveBlocked init) rfl

/-- Three lanes, two of them in the first group. -/
def threeLanes : ScanPlan := ⟨⟨.serial, 2, 1, rfl⟩, 3, by decide, by cbv⟩

/-- Two values for each of three lanes. -/
def threePairs : List (List Nat) := [[0], [1], [2, 2], [], [4], [5]]

theorem blocked_threeLanes :
    ∃ r, threeLanes.scan .inclusiveBlocked (· ++ ·) threePairs 6 = .ok r ∧
      r.output = Sequential.inclusive (· ++ ·) threePairs ∧
      r.total = some [0, 1, 2, 2, 4, 5] ∧
      threeLanes.runOver (threeLanes.unseededLeaving [7, 7]) .inclusiveBlocked (· ++ ·)
        threePairs = r := by
  have hlen : threePairs.length = threeLanes.blockSize * 2 := rfl
  obtain ⟨r, hr, houtput, htotal, hlane0⟩ :=
    (blocked_of_assoc List.append_assoc threeLanes Nat.two_pos hlen).1
  exact ⟨r, hr, houtput, htotal, hlane0 _ (threeLanes.agreesAbove_unseededLeaving [7, 7])⟩

end LaneGrid
