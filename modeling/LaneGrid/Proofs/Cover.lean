import Mathlib.Data.Nat.Basic
import Mathlib.Order.Basic
import LaneGrid.Grid

/-!
# Covers

`cover n size` things of a size cover `n`, and no fewer do (`cover_le_iff`).

A cover of a sum has between `b / size` and `cover b size` things more than that of its first part
(`cover_add_div_le`, `cover_add_le`), two numbers that differ by one at most.
-/

namespace LaneGrid

theorem cover_le_iff {n size k : Nat} (hs : 0 < size) : cover n size ≤ k ↔ n ≤ k * size := by
  rw [cover, Nat.div_le_iff_le_mul_add_pred hs, Nat.mul_comm size k]
  omega

theorem lt_cover_iff {n size k : Nat} (hs : 0 < size) : k < cover n size ↔ k * size < n := by
  rw [← Nat.not_le, cover_le_iff hs, Nat.not_le]

theorem cover_le_self (n : Nat) {size : Nat} (hs : 0 < size) : cover n size ≤ n :=
  (cover_le_iff hs).2 (Nat.le_mul_of_pos_right n hs)

theorem cover_zero {size : Nat} (hs : 0 < size) : cover 0 size = 0 :=
  Nat.le_zero.1 (cover_le_self 0 hs)

theorem cover_succ {n size : Nat} (hs : 0 < size) (hn : 0 < n) :
    cover n size = cover (n - size) size + 1 := by
  refine eq_of_forall_ge_iff fun k => ?_
  rw [cover_le_iff hs]
  cases k with
  | zero => omega
  | succ k =>
    rw [Nat.add_le_add_iff_right, cover_le_iff hs, Nat.succ_mul]
    omega

theorem cover_mul (n : Nat) {size : Nat} (hs : 0 < size) : cover (n * size) size = n :=
  eq_of_forall_ge_iff fun k => by rw [cover_le_iff hs, Nat.mul_le_mul_right_iff hs]

theorem cover_mono {n n' size : Nat} (hs : 0 < size) (h : n ≤ n') :
    cover n size ≤ cover n' size := by
  rw [cover_le_iff hs]
  exact Nat.le_trans h ((cover_le_iff hs).1 (Nat.le_refl _))

theorem cover_le_div_add_one (n : Nat) {size : Nat} (hs : 0 < size) :
    cover n size ≤ n / size + 1 := by
  rw [cover_le_iff hs, Nat.mul_comm]
  exact Nat.le_of_lt (Nat.lt_mul_div_succ n hs)

theorem cover_add_le (a b : Nat) {size : Nat} (hs : 0 < size) :
    cover (a + b) size ≤ cover a size + cover b size := by
  have ha := (cover_le_iff hs).1 (Nat.le_refl (cover a size))
  have hb := (cover_le_iff hs).1 (Nat.le_refl (cover b size))
  rw [cover_le_iff hs, Nat.add_mul]
  omega

theorem cover_add_div_le (a b : Nat) {size : Nat} (hs : 0 < size) :
    cover a size + b / size ≤ cover (a + b) size := by
  have hall := (cover_le_iff hs).1 (Nat.le_refl (cover (a + b) size))
  have hdiv : b / size * size ≤ b := Nat.div_mul_le_self b size
  have hle : b / size ≤ cover (a + b) size :=
    Nat.le_of_mul_le_mul_right (by omega) hs
  rw [← Nat.le_sub_iff_add_le hle, cover_le_iff hs, Nat.sub_mul]
  omega

end LaneGrid
