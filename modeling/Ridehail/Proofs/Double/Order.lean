import Mathlib.Data.Prod.Lex
import Mathlib.Order.Lattice
import Ridehail.Double.Basic

/-!
# The order of doubles

Doubles are compared by what they are unpacked to: by the sign, then by the
exponent and then by the mantissa, and a `NaN` is in no relation to anything.
The numbers are as many places of a lexicographic order, and that is where the
laws of `≤` and `<` come from.

## Main results

* `Double.le_iff_place`, `lt_iff_place` — comparing doubles is comparing their
  places.
* `Double.le_trans`, `Double.le_of_not_lt` — the laws, the latter for numbers.
* `Double.le_larger`, `smaller_le` — what is held above a bound or below it.
-/

namespace Ridehail.Double

open Float.Model (UnpackedFloat)
open Float.Model.UnpackedFloat

/-- The place of a number in the order, which a `NaN` does not have. -/
def place : UnpackedFloat → Option (ℤ ×ₗ ℤ ×ₗ ℤ)
  | .notANumber => none
  | .infinity .negative => some (toLex (-2, toLex (0, 0)))
  | .finite .negative m e _ => some (toLex (-1, toLex (-e, -m)))
  | .zero _ => some (toLex (0, toLex (0, 0)))
  | .finite .positive m e _ => some (toLex (1, toLex (e, m)))
  | .infinity .positive => some (toLex (2, toLex (0, 0)))

/-! ## Exponents before mantissas -/

section

variable {e f : Int} {m n : Nat}

theorem then_eq_lt_iff :
    (compare e f).then (compare m n) = .lt ↔ e < f ∨ e = f ∧ m < n := by
  rcases Int.lt_trichotomy e f with h | rfl | h
  · simp [Int.compare_eq_lt.2 h, h]
  · simp [Ordering.then, Nat.compare_eq_lt]
  · simp [Int.compare_eq_gt.2 h, h.le, h.ne', Ordering.then]

theorem then_eq_gt_iff :
    (compare e f).then (compare m n) = .gt ↔ f < e ∨ e = f ∧ n < m := by
  rcases Int.lt_trichotomy e f with h | rfl | h
  · simp [Int.compare_eq_lt.2 h, h.le, h.ne, Ordering.then]
  · simp [Ordering.then, Nat.compare_eq_gt]
  · simp [Int.compare_eq_gt.2 h, h, Ordering.then]

theorem then_isLE_iff :
    ((compare e f).then (compare m n)).isLE ↔ e < f ∨ e = f ∧ m ≤ n := by
  rw [← Ordering.ne_gt_iff_isLE, then_eq_gt_iff]
  omega

theorem then_isGE_iff :
    ((compare e f).then (compare m n)).isGE ↔ f < e ∨ e = f ∧ n ≤ m := by
  rw [← Ordering.ne_lt_iff_isGE, then_eq_lt_iff]
  omega

end

/-! ## Places -/

variable {u v : UnpackedFloat}

/-- A number is at most another one if its place is.  A `NaN` is at most
nothing. -/
theorem unpacked_le_iff :
    u.le v = true ↔ ∃ p q, place u = some p ∧ place v = some q ∧ p ≤ q := by
  rcases u with s | _ | s | ⟨s, m, e, hm⟩ <;>
    rcases v with t | _ | t | ⟨t, n, f, hn⟩ <;>
    (try cases s) <;> (try cases t) <;>
    dsimp only [UnpackedFloat.le, UnpackedFloat.compare, place] <;>
    simp [Prod.Lex.toLex_le_toLex, then_isLE_iff, then_isGE_iff]
  -- What is left compares the signs of two infinities.
  all_goals rfl

theorem unpacked_lt_iff :
    u.lt v = true ↔ ∃ p q, place u = some p ∧ place v = some q ∧ p < q := by
  rcases u with s | _ | s | ⟨s, m, e, hm⟩ <;>
    rcases v with t | _ | t | ⟨t, n, f, hn⟩ <;>
    (try cases s) <;> (try cases t) <;>
    dsimp only [UnpackedFloat.lt, UnpackedFloat.compare, place] <;>
    simp [Prod.Lex.toLex_lt_toLex, then_eq_lt_iff, then_eq_gt_iff]
  all_goals decide

/-! ## Doubles -/

variable {x y z low high : Float}

theorem le_iff_place : x ≤ y ↔
    ∃ p q, place x.toModel.unpack = some p ∧
      place y.toModel.unpack = some q ∧ p ≤ q := by
  have hmodel : x ≤ y ↔ decide (x.toModel ≤ y.toModel) = true := Iff.rfl
  rw [hmodel, decide_eq_true_iff, ← unpacked_le_iff]
  exact Iff.rfl

theorem lt_iff_place : x < y ↔
    ∃ p q, place x.toModel.unpack = some p ∧
      place y.toModel.unpack = some q ∧ p < q := by
  have hmodel : x < y ↔ decide (x.toModel < y.toModel) = true := Iff.rfl
  rw [hmodel, decide_eq_true_iff, ← unpacked_lt_iff]
  exact Iff.rfl

/-- Every number has a place. -/
theorem exists_place (h : x.isNaN = false) :
    ∃ p, place x.toModel.unpack = some p := by
  have hnan : x.toModel.unpack.isNaN = false := h
  cases hx : x.toModel.unpack with
  | notANumber =>
      rw [hx] at hnan
      cases hnan
  | zero s => exact ⟨_, rfl⟩
  | infinity s => cases s <;> exact ⟨_, rfl⟩
  | finite s m e hm => cases s <;> exact ⟨_, rfl⟩

theorem isNaN_of_place {p : ℤ ×ₗ ℤ ×ₗ ℤ} (h : place x.toModel.unpack = some p) :
    x.isNaN = false := by
  show x.toModel.unpack.isNaN = false
  cases hx : x.toModel.unpack with
  | notANumber =>
      rw [hx] at h
      cases h
  | _ => rfl

protected theorem le_trans (hxy : x ≤ y) (hyz : y ≤ z) : x ≤ z := by
  obtain ⟨p, q, hp, hq, hpq⟩ := le_iff_place.1 hxy
  obtain ⟨q', r, hq', hr, hqr⟩ := le_iff_place.1 hyz
  cases hq.symm.trans hq'
  exact le_iff_place.2 ⟨p, r, hp, hr, hpq.trans hqr⟩

/-- What is at most something, or at least, is a number. -/
theorem isNaN_of_le (h : x ≤ y) : x.isNaN = false ∧ y.isNaN = false := by
  obtain ⟨p, q, hp, hq, -⟩ := le_iff_place.1 h
  exact ⟨isNaN_of_place hp, isNaN_of_place hq⟩

/-- What is less than something, or more, is a number. -/
theorem isNaN_of_lt (h : x < y) : x.isNaN = false ∧ y.isNaN = false := by
  obtain ⟨p, q, hp, hq, -⟩ := lt_iff_place.1 h
  exact ⟨isNaN_of_place hp, isNaN_of_place hq⟩

/-- Of two numbers one is at most the other. -/
protected theorem le_of_not_lt (hx : x.isNaN = false) (hy : y.isNaN = false)
    (h : ¬x < y) :
    y ≤ x := by
  obtain ⟨p, hp⟩ := exists_place hx
  obtain ⟨q, hq⟩ := exists_place hy
  refine le_iff_place.2 ⟨q, p, hq, hp, not_lt.1 fun hlt => h ?_⟩
  exact lt_iff_place.2 ⟨p, q, hp, hq, hlt⟩

/-- What is held above a bound is no less. -/
theorem le_larger (hlow : low ≤ low) : low ≤ larger x low := by
  have hnan := (isNaN_of_le hlow).1
  unfold larger
  split
  · exact hlow
  · rename_i hx
    rw [hnan, if_neg Bool.false_ne_true]
    split
    · exact hlow
    · rename_i hle
      exact Double.le_of_not_lt (Bool.eq_false_iff.2 hx) hnan hle

/-- What is held below a bound is no more. -/
theorem smaller_le (hhigh : high ≤ high) : smaller x high ≤ high := by
  have hnan := (isNaN_of_le hhigh).1
  unfold smaller
  split
  · exact hhigh
  · rename_i hx
    rw [hnan, if_neg Bool.false_ne_true]
    split
    · exact hhigh
    · rename_i hle
      exact Double.le_of_not_lt hnan (Bool.eq_false_iff.2 hx) hle

/-- The infinities have the outermost places. -/
theorem place_of_isFinite {p : ℤ ×ₗ ℤ ×ₗ ℤ} (hx : x.isFinite = true)
    (hp : place x.toModel.unpack = some p) : -1 ≤ (ofLex p).1 ∧
      (ofLex p).1 ≤ 1 := by
  have hmodel : x.toModel.unpack.isFinite = true := hx
  cases hu : x.toModel.unpack with
  | zero s =>
      rw [hu] at hp
      cases hp
      simp
  | finite s m e hm =>
      rw [hu] at hp
      cases s <;> cases hp <;> simp
  | _ =>
      rw [hu] at hmodel
      cases hmodel

/-- What lies between two finite numbers is finite. -/
theorem isFinite_of_between (hlow : low.isFinite = true)
    (hhigh : high.isFinite = true) (hlo : low ≤ x) (hhi : x ≤ high) :
    x.isFinite = true := by
  obtain ⟨p, q, hp, hq, hpq⟩ := le_iff_place.1 hlo
  obtain ⟨q', r, hq', hr, hqr⟩ := le_iff_place.1 hhi
  cases hq.symm.trans hq'
  have hfirst {a b : ℤ ×ₗ ℤ ×ₗ ℤ} (h : a ≤ b) : (ofLex a).1 ≤ (ofLex b).1 :=
    (Prod.Lex.le_iff.1 h).elim Int.le_of_lt fun h => h.1.le
  have hleast := (place_of_isFinite hlow hp).1.trans (hfirst hpq)
  have hmost := (hfirst hqr).trans (place_of_isFinite hhigh hr).2
  show x.toModel.unpack.isFinite = true
  cases hu : x.toModel.unpack with
  | notANumber =>
      rw [hu] at hq
      cases hq
  | infinity s =>
      rw [hu] at hq
      cases s <;> cases hq
      · exact absurd hleast (by decide)
      · exact absurd hmost (by decide)
  | _ => rfl

end Ridehail.Double
