import Mathlib
import LaneGrid.Proofs.Bins.Ranges

/-!
# Floating-point levels in order

Every floating-point number has a place on one line, and a NaN has none (`place`). Two numbers
compare as their places do (`compare_eq`), and so their comparisons are those of an order, in both
formats (`OrderedLevel Float`, `OrderedLevel Float32`).

A NaN is just what is not at or below itself (`Float.unordered_iff`, `Float32.unordered_iff`).
-/

namespace LaneGrid

open Float.Model UnpackedFloat

variable {ℓ : Type}

/-! ## Places -/

/-- Where a number stands: infinities at the ends, zeros in the middle, and the numbers of one sign
by their exponents, and then by their mantissas. -/
def place : UnpackedFloat → Option (ℤ ×ₗ ℤ ×ₗ ℤ)
  | .notANumber => none
  | .infinity .negative => some (toLex (-2, toLex (0, 0)))
  | .finite .negative mantissa exponent _ => some (toLex (-1, toLex (-exponent, -mantissa)))
  | .zero _ => some (toLex (0, toLex (0, 0)))
  | .finite .positive mantissa exponent _ => some (toLex (1, toLex (exponent, mantissa)))
  | .infinity .positive => some (toLex (2, toLex (0, 0)))

theorem place_eq_none_iff {a : UnpackedFloat} : place a = none ↔ a.isNaN = true := by
  rcases a with (_ | _) | _ | _ | ⟨_ | _, _, _, _⟩ <;> simp [place, UnpackedFloat.isNaN]

theorem then_compares {α β : Type} [LinearOrder α] [LinearOrder β] {p q : α × β} {o o' : Ordering}
    (h : o.Compares p.1 q.1) (h' : o'.Compares p.2 q.2) :
    (o.then o').Compares (toLex p) (toLex q) := by
  cases o with
  | lt => exact Prod.Lex.lt_iff.2 (.inl h)
  | gt => exact Prod.Lex.lt_iff.2 (.inl h)
  | eq =>
    cases o' with
    | lt => exact Prod.Lex.lt_iff.2 (.inr ⟨h, h'⟩)
    | gt => exact Prod.Lex.lt_iff.2 (.inr ⟨h.symm, h'⟩)
    | eq => exact congrArg toLex (Prod.ext h h')

theorem compares_natCast (m m' : ℕ) : (compare m m').Compares (m : ℤ) (m' : ℤ) := by
  have h : (compare m m').Compares m m' := (compare_iff m m').1 rfl
  cases hm : compare m m' with
  | lt => exact Int.ofNat_lt.2 (compare_lt_iff_lt.1 hm)
  | eq => exact congrArg _ (compare_eq_iff_eq.1 hm)
  | gt => exact Int.ofNat_lt.2 (compare_gt_iff_gt.1 hm)

theorem compares_neg {o : Ordering} {a b : ℤ} (h : o.Compares a b) : o.swap.Compares (-a) (-b) := by
  cases o with
  | lt => exact Int.neg_lt_neg h
  | eq => exact congrArg _ h
  | gt => exact Int.neg_lt_neg h

/-- Two finite numbers of one sign compare by their exponents, and then by their mantissas. -/
theorem then_compares_finite (e e' : ℤ) (m m' : ℕ) :
    ((compare e e').then (compare m m')).Compares (toLex (e, (m : ℤ))) (toLex (e', (m' : ℤ))) :=
  then_compares ((compare_iff e e').1 rfl) (compares_natCast m m')

theorem swap_then_compares_finite (e e' : ℤ) (m m' : ℕ) :
    ((compare e e').then (compare m m')).swap.Compares (toLex (-e, -(m : ℤ)))
      (toLex (-e', -(m' : ℤ))) := by
  rw [Ordering.swap_then]
  exact then_compares (compares_neg ((compare_iff e e').1 rfl))
    (compares_neg (compares_natCast m m'))

/-- Numbers that have places compare as these do. -/
theorem compare_eq {a b : UnpackedFloat} {p q : ℤ ×ₗ ℤ ×ₗ ℤ} (ha : place a = some p)
    (hb : place b = some q) : ∃ o, a.compare b = some o ∧ o.Compares p q := by
  rcases a with (_ | _) | _ | _ | ⟨_ | _, m, e, _⟩ <;>
    rcases b with (_ | _) | _ | _ | ⟨_ | _, m', e', _⟩ <;> cases ha <;> cases hb <;>
    refine ⟨_, rfl, ?_⟩
  case finite.negative.finite.negative =>
    exact then_compares (o := .eq) rfl (swap_then_compares_finite e e' m m')
  case finite.positive.finite.positive =>
    exact then_compares (o := .eq) rfl (then_compares_finite e e' m m')
  all_goals first
    | rfl
    | exact Prod.Lex.lt_iff.2 (.inl (by simp))

theorem compare_eq_none_of_isNaN {a : UnpackedFloat} (h : a.isNaN = true) (b : UnpackedFloat) :
    a.compare b = none ∧ b.compare a = none := by
  cases a with
  | notANumber => exact ⟨rfl, by cases b <;> rfl⟩
  | _ => cases h

/-- A comparison needs two places. -/
theorem exists_place_of_compare {a b : UnpackedFloat} {o : Ordering} (h : a.compare b = some o) :
    ∃ p q, place a = some p ∧ place b = some q ∧ o.Compares p q := by
  cases ha : place a with
  | none =>
    rw [(compare_eq_none_of_isNaN (place_eq_none_iff.1 ha) b).1] at h
    cases h
  | some p =>
    cases hb : place b with
    | none =>
      rw [(compare_eq_none_of_isNaN (place_eq_none_iff.1 hb) a).2] at h
      cases h
    | some q =>
      obtain ⟨o', ho, hcompares⟩ := compare_eq ha hb
      rw [h] at ho
      cases ho
      exact ⟨p, q, rfl, rfl, hcompares⟩

theorem le_iff_place {a b : UnpackedFloat} :
    a.le b = true ↔ ∃ p q, place a = some p ∧ place b = some q ∧ p ≤ q := by
  rw [UnpackedFloat.le, Option.any_eq_true]
  constructor
  · rintro ⟨o, ho, hle⟩
    obtain ⟨p, q, ha, hb, h⟩ := exists_place_of_compare ho
    exact ⟨p, q, ha, hb, h.ne_gt.1 (Ordering.isLE_iff_ne_gt.1 hle)⟩
  · rintro ⟨p, q, ha, hb, hle⟩
    obtain ⟨o, ho, h⟩ := compare_eq ha hb
    exact ⟨o, ho, Ordering.isLE_iff_ne_gt.2 (h.ne_gt.2 hle)⟩

theorem lt_iff_place {a b : UnpackedFloat} :
    a.lt b = true ↔ ∃ p q, place a = some p ∧ place b = some q ∧ p < q := by
  rw [UnpackedFloat.lt, beq_iff_eq]
  constructor
  · intro hlt
    exact exists_place_of_compare hlt
  · rintro ⟨p, q, ha, hb, hlt⟩
    obtain ⟨o, ho, h⟩ := compare_eq ha hb
    rw [ho, h.eq_lt.2 hlt]

/-! ## Levels -/

/-- Comparisons of places are those of an order. -/
theorem OrderedLevel.of_place [Level ℓ] {unpack : ℓ → UnpackedFloat}
    (hle : ∀ a b, Level.le a b = (unpack a).le (unpack b))
    (hlt : ∀ a b, Level.lt a b = (unpack a).lt (unpack b)) : OrderedLevel ℓ where
  le_self {a b} h := by
    rw [hle, le_iff_place] at h ⊢
    obtain ⟨p, q, -, hb, -⟩ := h
    exact ⟨q, q, hb, hb, le_refl q⟩
  le_trans {a b c} h h' := by
    rw [hle, le_iff_place] at h h' ⊢
    obtain ⟨p, q, ha, hb, hpq⟩ := h
    obtain ⟨q', r, hb', hc, hqr⟩ := h'
    cases hb.symm.trans hb'
    exact ⟨p, r, ha, hc, hpq.trans hqr⟩
  lt_of_le_of_lt {a b c} h h' := by
    rw [hle, le_iff_place] at h
    rw [hlt, lt_iff_place] at h' ⊢
    obtain ⟨p, q, ha, hb, hpq⟩ := h
    obtain ⟨q', r, hb', hc, hqr⟩ := h'
    cases hb.symm.trans hb'
    exact ⟨p, r, ha, hc, hpq.trans_lt hqr⟩
  not_le_of_lt {a b} h h' := by
    rw [hlt, lt_iff_place] at h
    rw [hle, le_iff_place] at h'
    obtain ⟨p, q, ha, hb, hpq⟩ := h
    obtain ⟨q', p', hb', ha', hqp⟩ := h'
    cases hb.symm.trans hb'
    cases ha.symm.trans ha'
    exact absurd hqp (not_le_of_gt hpq)

/-- A number is at or below itself unless it is a NaN. -/
theorem not_le_self_iff {a : UnpackedFloat} : ¬a.le a = true ↔ a.isNaN = true := by
  rw [← place_eq_none_iff, le_iff_place]
  cases place a with
  | none => simp
  | some p => simp

namespace Float

theorem le_eq (a b : Float) : Level.le a b = a.toModel.unpack.le b.toModel.unpack := by
  rw [Bool.eq_iff_iff]
  exact decide_eq_true_iff.trans decide_eq_true_iff

theorem lt_eq (a b : Float) : Level.lt a b = a.toModel.unpack.lt b.toModel.unpack := by
  rw [Bool.eq_iff_iff]
  exact decide_eq_true_iff.trans decide_eq_true_iff

instance : OrderedLevel Float := .of_place le_eq lt_eq

/-- **A NaN compares with nothing**, and it alone. -/
theorem unordered_iff {a : Float} : Unordered a ↔ a.isNaN = true := by
  rw [Unordered, le_eq]
  exact not_le_self_iff

end Float

namespace Float32

theorem le_eq (a b : Float32) : Level.le a b = a.toModel.unpack.le b.toModel.unpack := by
  rw [Bool.eq_iff_iff]
  exact decide_eq_true_iff.trans decide_eq_true_iff

theorem lt_eq (a b : Float32) : Level.lt a b = a.toModel.unpack.lt b.toModel.unpack := by
  rw [Bool.eq_iff_iff]
  exact decide_eq_true_iff.trans decide_eq_true_iff

instance : OrderedLevel Float32 := .of_place le_eq lt_eq

theorem unordered_iff {a : Float32} : Unordered a ↔ a.isNaN = true := by
  rw [Unordered, le_eq]
  exact not_le_self_iff

end Float32

end LaneGrid
