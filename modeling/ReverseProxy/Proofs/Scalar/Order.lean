import Mathlib.Data.Int.Order.Basic
import Mathlib.Data.Prod.Lex
import Mathlib.Order.Compare
import ReverseProxy.Scalar

/-!
# Floating point numbers in order

A comparison with a value that is no number is false. All other values stand in a line, by their sign,
and those of one sign by exponent and mantissa: `position` tells where.
-/

namespace ReverseProxy.Scalar

open Float.Model (UnpackedFloat)

/-- Where a value stands in the line: by sign and kind, then by exponent and mantissa. Both zeros
stand in one place. -/
def place : UnpackedFloat → ℤ ×ₗ ℤ ×ₗ ℤ
  | .infinity .negative => toLex (-2, toLex (0, 0))
  | .finite .negative m e _ => toLex (-1, toLex (-e, -m))
  | .zero _ | .notANumber => toLex (0, toLex (0, 0))
  | .finite .positive m e _ => toLex (1, toLex (e, m))
  | .infinity .positive => toLex (2, toLex (0, 0))

theorem compare_natCast (m n : ℕ) : compare (m : ℤ) (n : ℤ) = compare m n := by
  have hmono : StrictMono fun n : ℕ => (n : ℤ) := fun _ _ => Int.ofNat_lt.mpr
  rw [← cmp_eq_compare, ← cmp_eq_compare]
  exact hmono.cmp_map_eq m n

theorem compare_neg_neg (a b : ℤ) : compare (-a) (-b) = (compare a b).swap := by
  have hanti : StrictAnti fun a : ℤ => -a := fun _ _ => Int.neg_lt_neg
  rw [← cmp_eq_compare, ← cmp_eq_compare, cmp_swap]
  exact hanti.cmp_map_eq a b

/-- Two finite values of one sign are compared by exponent and mantissa, below zero the other way. -/
theorem compare_finite (s : UnpackedFloat.Sign) {m m' : ℕ} {e e' : ℤ} (hm : 0 < m) (hm' : 0 < m') :
    (UnpackedFloat.finite s m e hm).compare (.finite s m' e' hm') =
      some (compare (place (.finite s m e hm)) (place (.finite s m' e' hm'))) := by
  cases s with
  | positive =>
      change some ((compare e e').then (compare m m')) =
        some ((compare e e').then (compare (m : ℤ) (m' : ℤ)))
      rw [compare_natCast]
  | negative =>
      change some ((compare e e').then (compare m m')).swap =
        some ((compare (-e) (-e')).then (compare (-(m : ℤ)) (-(m' : ℤ))))
      rw [compare_neg_neg, compare_neg_neg, compare_natCast, Ordering.swap_then]

/-- Numbers are compared as their places are. -/
theorem compare_eq {a b : UnpackedFloat} (ha : a.isNaN = false) (hb : b.isNaN = false) :
    a.compare b = some (compare (place a) (place b)) := by
  cases a with
  | notANumber => cases ha
  | infinity s =>
      cases b with
      | notANumber => cases hb
      | infinity s' => cases s <;> cases s' <;> rfl
      | zero s' => cases s <;> rfl
      | finite s' => cases s <;> cases s' <;> rfl
  | zero s =>
      cases b with
      | notANumber => cases hb
      | infinity s' => cases s' <;> rfl
      | zero s' => rfl
      | finite s' => cases s' <;> rfl
  | finite s m e hm =>
      cases b with
      | notANumber => cases hb
      | infinity s' => cases s <;> cases s' <;> rfl
      | zero s' => cases s <;> rfl
      | finite s' m' e' hm' =>
          cases s with
          | positive =>
              cases s' with
              | positive => exact compare_finite .positive hm hm'
              | negative => rfl
          | negative =>
              cases s' with
              | positive => rfl
              | negative => exact compare_finite .negative hm hm'

/-- Where a double stands in the line. -/
def position (x : Float) : ℤ ×ₗ ℤ ×ₗ ℤ := place x.toModel.unpack

variable {x y : Float}

theorem lt_iff_position (hx : x.isNaN = false) (hy : y.isNaN = false) :
    x < y ↔ position x < position y := by
  have hcompare := compare_eq (a := x.toModel.unpack) (b := y.toModel.unpack) hx hy
  change decide (x.toModel.lt y.toModel = true) = true ↔ _
  rw [decide_eq_true_eq, Float.Model.lt, UnpackedFloat.lt, hcompare, beq_iff_eq, Option.some.injEq,
    compare_lt_iff_lt]
  rfl

theorem le_iff_position (hx : x.isNaN = false) (hy : y.isNaN = false) :
    x ≤ y ↔ position x ≤ position y := by
  have hcompare := compare_eq (a := x.toModel.unpack) (b := y.toModel.unpack) hx hy
  change decide (x.toModel.le y.toModel = true) = true ↔ _
  rw [decide_eq_true_eq, Float.Model.le, UnpackedFloat.le, hcompare, Option.any_some,
    Ordering.isLE_iff_ne_gt]
  exact compare_le_iff_le

/-- Which of two latencies is the lower one, as it is asked when a backend is chosen. -/
theorem below_iff_position (hx : x.isNaN = false) (hy : y.isNaN = false) :
    below x y = true ↔ position x < position y :=
  decide_eq_true_iff.trans (lt_iff_position hx hy)

end ReverseProxy.Scalar
