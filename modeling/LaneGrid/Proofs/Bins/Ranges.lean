import LaneGrid.Bins.Equal
import LaneGrid.Bins.Boundary

/-!
# Which samples have a bin

A sample has a bin when it lies in the range that the bins cover, from its lower end up to, but not
including, its upper end (`inRange`): always for bins of equal width (`EqualBins.isSome_bin`), and
for bins between boundaries if any two levels compare (`BoundaryBins.isSome_bin`).

* `OrderedLevel`: comparisons are those of an order. Some values may compare with nothing, as a NaN
  does (`Unordered`).
* `LinearLevel`: of any two values one is at or below the other, as with words.
* `le_iff_lt_upperBound`: halving finds where the boundaries at or below a sample end.
-/

namespace LaneGrid

variable {k : IntKind} {ℓ : Type}

/-! ## Orders -/

/-- Comparisons of an order, in which values may compare with nothing. -/
class OrderedLevel (ℓ : Type) [Level ℓ] : Prop where
  /-- A value that is at or above any is at or below itself. -/
  le_self {a b : ℓ} : Level.le a b = true → Level.le b b = true
  le_trans {a b c : ℓ} : Level.le a b = true → Level.le b c = true → Level.le a c = true
  lt_of_le_of_lt {a b c : ℓ} : Level.le a b = true → Level.lt b c = true → Level.lt a c = true
  not_le_of_lt {a b : ℓ} : Level.lt a b = true → ¬Level.le b a = true

/-- Comparisons of a linear order. -/
class LinearLevel (ℓ : Type) [Level ℓ] : Prop extends OrderedLevel ℓ where
  lt_of_not_le {a b : ℓ} : ¬Level.le b a = true → Level.lt a b = true

theorem lt_iff_not_le [Level ℓ] [LinearLevel ℓ] {a b : ℓ} :
    Level.lt a b = true ↔ ¬Level.le b a = true :=
  ⟨OrderedLevel.not_le_of_lt, LinearLevel.lt_of_not_le⟩

namespace Word

theorem le_iff {a b : Word k} : Level.le a b = true ↔ a.toInt ≤ b.toInt := decide_eq_true_iff

theorem lt_iff {a b : Word k} : Level.lt a b = true ↔ a.toInt < b.toInt := decide_eq_true_iff

instance : LinearLevel (Word k) where
  le_self _ := le_iff.2 (Int.le_refl _)
  le_trans h h' := le_iff.2 (Int.le_trans (le_iff.1 h) (le_iff.1 h'))
  lt_of_le_of_lt h h' := lt_iff.2 (Int.lt_of_le_of_lt (le_iff.1 h) (lt_iff.1 h'))
  not_le_of_lt h h' := Int.not_lt.2 (le_iff.1 h') (lt_iff.1 h)
  lt_of_not_le h := lt_iff.2 (Int.not_le.1 fun h' => h (le_iff.2 h'))

end Word

variable [Level ℓ]

/-- A value is not even at or below itself, as a NaN is not. -/
def Unordered (a : ℓ) : Prop := ¬Level.le a a = true

/-- A sample lies from `lower` up to, but not including, `upper`. -/
def inRange (lower upper sample : ℓ) : Bool := Level.le lower sample && Level.lt sample upper

theorem inRange_iff {lower upper sample : ℓ} :
    inRange lower upper sample = true ↔
      Level.le lower sample = true ∧ Level.lt sample upper = true :=
  Bool.and_eq_true_iff

/-- A sample that compares with nothing is in no range. -/
theorem inRange_of_unordered [OrderedLevel ℓ] {sample : ℓ} (h : Unordered sample)
    (lower upper : ℓ) : ¬inRange lower upper sample = true :=
  fun hin => h (OrderedLevel.le_self (inRange_iff.1 hin).1)

/-- Nothing is in a range whose upper end is at or below the lower one. -/
theorem inRange_of_inverted [OrderedLevel ℓ] {lower upper : ℓ} (h : Level.le upper lower = true)
    (sample : ℓ) : ¬inRange lower upper sample = true := by
  intro hin
  obtain ⟨hlower, hupper⟩ := inRange_iff.1 hin
  exact OrderedLevel.not_le_of_lt (OrderedLevel.lt_of_le_of_lt hlower hupper) h

/-! ## Bins of equal width -/

theorem EqualBins.isSome_bin (m : EqualBins ℓ) (sample : ℓ) :
    (m.bin sample).isSome = inRange m.lower m.upper sample := by
  unfold bin inRange
  cases Level.le m.lower sample && Level.lt sample m.upper <;> rfl

/-! ## Bins between boundaries -/

/-- Without a descent, every value is at or below all later ones. -/
theorem pairwise_of_firstDescent [OrderedLevel ℓ] : ∀ {levels : List ℓ},
    firstDescent levels = none → levels.Pairwise fun a b => Level.le a b = true
  | [], _ => .nil
  | [a], _ => List.pairwise_singleton _ a
  | a :: b :: rest, h => by
    rw [firstDescent] at h
    split at h
    · rename_i hab
      have hrest := pairwise_of_firstDescent h
      refine List.pairwise_cons.2 ⟨fun c hc => ?_, hrest⟩
      rcases List.mem_cons.1 hc with rfl | hc
      · exact hab
      · exact OrderedLevel.le_trans hab ((List.pairwise_cons.1 hrest).1 c hc)
    · cases h

namespace BoundaryBins

variable {boundaries : Array ℓ} {sample : ℓ}

theorem le_upperBound {low high : Nat} (h : high ≤ boundaries.size) :
    low ≤ upperBound boundaries sample low high h := by
  fun_induction upperBound boundaries sample low high h with
  | case1 low high _ _ _ _ ih => omega
  | case2 low high _ _ _ _ ih => exact ih
  | case3 low high _ _ => exact Nat.le_refl low

/-- **Halving finds where the boundaries at or below a sample end**, if they come first. -/
theorem le_iff_lt_upperBound
    (hfirst : ∀ i j (hij : i ≤ j) (hj : j < boundaries.size),
      Level.le boundaries[j] sample = true → Level.le boundaries[i] sample = true)
    {low high : Nat} (h : high ≤ boundaries.size) {i : Nat} (hlow : low ≤ i) (hhigh : i < high) :
    Level.le boundaries[i] sample = true ↔ i < upperBound boundaries sample low high h := by
  fun_induction upperBound boundaries sample low high h with
  | case1 low high h _ hmid hle ih =>
    by_cases hi : (low + high) / 2 + 1 ≤ i
    · exact ih hi hhigh
    · -- up to the middle, all boundaries are at or below the sample
      have hbelow := hfirst i _ (by omega) hmid hle
      have hbound : (low + high) / 2 + 1 ≤
          upperBound boundaries sample ((low + high) / 2 + 1) high h := le_upperBound h
      exact iff_of_true hbelow (by omega)
  | case2 low high h _ hmid hle ih =>
    by_cases hi : i < (low + high) / 2
    · exact ih hlow hi
    · -- from the middle on, none is
      have habove : ¬Level.le boundaries[i] sample = true :=
        fun hbelow => hle (hfirst _ i (by omega) (by omega) hbelow)
      have hbound : upperBound boundaries sample low ((low + high) / 2) (by omega) ≤
          (low + high) / 2 := upperBound_le _ (by omega)
      exact iff_of_false habove (by omega)
  | case3 low high h hlt => omega

variable (m : BoundaryBins ℓ)

theorem le_of_le [OrderedLevel ℓ] (i j : Nat) (hij : i ≤ j) (hj : j < m.boundaries.size)
    (h : Level.le m.boundaries[j] sample = true) : Level.le m.boundaries[i] sample = true := by
  rcases Nat.lt_or_eq_of_le hij with hlt | rfl
  · have hpairwise := List.pairwise_iff_getElem.1 (pairwise_of_firstDescent m.ascending)
    exact OrderedLevel.le_trans (hpairwise i j (by simp; omega) (by simpa) hlt) h
  · exact h

/-- How many boundaries are at or below a sample. -/
theorem le_iff_lt [OrderedLevel ℓ] {i : Nat} (hi : i < m.boundaries.size) :
    Level.le m.boundaries[i] sample = true ↔
      i < upperBound m.boundaries sample 0 m.boundaries.size (Nat.le_refl _) :=
  le_iff_lt_upperBound m.le_of_le (Nat.le_refl _) (Nat.zero_le i) hi

/-- A sample has a bin when it is in the range from the first boundary to the last. -/
theorem isSome_bin [LinearLevel ℓ] {first last : ℓ} (hfirst : m.boundaries[0]? = some first)
    (hlast : m.boundaries.back? = some last) (sample : ℓ) :
    (m.bin sample).isSome = inRange first last sample := by
  rw [Array.back?_eq_getElem?] at hlast
  obtain ⟨h0, rfl⟩ := Array.getElem?_eq_some_iff.1 hfirst
  obtain ⟨hlt, rfl⟩ := Array.getElem?_eq_some_iff.1 hlast
  have hle : upperBound m.boundaries sample 0 m.boundaries.size (Nat.le_refl _) ≤ _ :=
    upperBound_le _ (Nat.zero_le _)
  rw [Bool.eq_iff_iff, inRange_iff, lt_iff_not_le, m.le_iff_lt, m.le_iff_lt, bin]
  split
  · simp only [Option.isSome_none, Bool.false_eq_true, false_iff]
    omega
  · simp only [Option.isSome_some, true_iff]
    omega

end BoundaryBins

end LaneGrid
