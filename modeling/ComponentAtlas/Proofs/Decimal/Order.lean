/-
Module: ComponentAtlas.Proofs.Decimal.Order
Purpose: The floats that are numbers are in the order of their signs, exponents and mantissas.
Main exports:
  place, le_iff_place_le, lt_iff_place_lt, isNumber_of_le, lt_iff_not_le
-/
import Mathlib.Data.Prod.Lex
import Mathlib.Order.Compare

namespace ComponentAtlas.Decimal

open Float.Model

/-- Where a float stands among the floats: by its sign, and away from zero by exponent and
mantissa.  A float that is no number stands nowhere, and its place says nothing. -/
def place : UnpackedFloat → ℤ ×ₗ ℤ ×ₗ ℤ
  | .infinity .negative => toLex (-2, toLex (0, 0))
  | .finite .negative mantissa exponent _ => toLex (-1, toLex (-exponent, -mantissa))
  | .finite .positive mantissa exponent _ => toLex (1, toLex (exponent, mantissa))
  | .infinity .positive => toLex (2, toLex (0, 0))
  | .zero _ | .notANumber => toLex (0, toLex (0, 0))

theorem compare_natCast (m n : ℕ) : compare (m : ℤ) n = compare m n := by
  change compareOfLessAndEq _ _ = compareOfLessAndEq _ _
  simp only [compareOfLessAndEq, Int.ofNat_lt, Int.natCast_inj]

theorem compare_neg (a b : ℤ) : compare (-a) (-b) = (compare a b).swap := by
  rw [← Std.OrientedCmp.eq_swap]
  change compareOfLessAndEq _ _ = compareOfLessAndEq _ _
  simp [compareOfLessAndEq, eq_comm]

theorem compare_toLex {α β : Type} [LinearOrder α] [LinearOrder β] (a c : α) (b d : β) :
    compare (toLex (a, b)) (toLex (c, d)) = (compare a c).then (compare b d) := by
  rw [Prod.Lex.compare_def]
  rfl

/-- Floats that are numbers compare as their places do. -/
theorem compare_eq_compare_place {x y : UnpackedFloat} (isNumber : x.isNaN = false)
    (otherIsNumber : y.isNaN = false) : x.compare y = some (compare (place x) (place y)) := by
  cases x with
  | notANumber => cases isNumber
  | infinity s => cases y with
    | notANumber => cases otherIsNumber
    | infinity t => cases s <;> cases t <;> rfl
    | zero t => cases s <;> rfl
    | finite t n f _ => cases s <;> cases t <;> rfl
  | zero s => cases y with
    | notANumber => cases otherIsNumber
    | infinity t => cases t <;> rfl
    | zero t => rfl
    | finite t n f _ => cases t <;> rfl
  | finite s m e _ => cases y with
    | notANumber => cases otherIsNumber
    | infinity t => cases s <;> cases t <;> rfl
    | zero t => cases s <;> rfl
    | finite t n f _ =>
        cases s <;> cases t
        case negative.positive => rfl
        case positive.negative => rfl
        case positive.positive =>
          change some ((compare e f).then (compare m n)) =
            some (compare (toLex ((1 : ℤ), toLex (e, (m : ℤ))))
              (toLex ((1 : ℤ), toLex (f, (n : ℤ)))))
          rw [compare_toLex, compare_toLex, compare_natCast]
          rfl
        case negative.negative =>
          change some ((compare e f).then (compare m n)).swap =
            some (compare (toLex ((-1 : ℤ), toLex (-e, -(m : ℤ))))
              (toLex ((-1 : ℤ), toLex (-f, -(n : ℤ)))))
          rw [compare_toLex, compare_toLex, compare_neg e, compare_neg m, compare_natCast,
            Ordering.swap_then]
          rfl

/-- Only numbers compare at all. -/
theorem isNumber_of_compare {x y : UnpackedFloat} {order : Ordering}
    (isOrdered : x.compare y = some order) : x.isNaN = false ∧ y.isNaN = false := by
  cases x with
  | notANumber => cases y <;> cases isOrdered
  | infinity s => cases y with
    | notANumber => cases isOrdered
    | _ => exact ⟨rfl, rfl⟩
  | zero s => cases y with
    | notANumber => cases isOrdered
    | _ => exact ⟨rfl, rfl⟩
  | finite s m e _ => cases y with
    | notANumber => cases isOrdered
    | _ => exact ⟨rfl, rfl⟩

theorem le_iff_compare {x y : Float} :
    x ≤ y ↔ (x.toModel.unpack.compare y.toModel.unpack).any (·.isLE) = true := by
  change decide (x.toModel ≤ y.toModel) = true ↔ _
  rw [decide_eq_true_iff]
  rfl

theorem le_iff_place_le {x y : Float} (isNumber : x.isNaN = false)
    (otherIsNumber : y.isNaN = false) :
    x ≤ y ↔ place x.toModel.unpack ≤ place y.toModel.unpack := by
  rw [le_iff_compare, compare_eq_compare_place isNumber otherIsNumber, ← compare_le_iff_le,
    Option.any_some, ne_eq, Ordering.isLE_iff_ne_gt]

theorem lt_iff_place_lt {x y : Float} (isNumber : x.isNaN = false)
    (otherIsNumber : y.isNaN = false) :
    x < y ↔ place x.toModel.unpack < place y.toModel.unpack := by
  have same : x < y ↔ (x.toModel.unpack.compare y.toModel.unpack == some .lt) = true := by
    change decide (x.toModel < y.toModel) = true ↔ _
    rw [decide_eq_true_iff]
    rfl
  rw [same, compare_eq_compare_place isNumber otherIsNumber, ← compare_lt_iff_lt]
  simp

/-- What is no number is in no order with anything. -/
theorem isNumber_of_le {x y : Float} (isLe : x ≤ y) : x.isNaN = false ∧ y.isNaN = false := by
  rw [le_iff_compare] at isLe
  cases isOrdered : x.toModel.unpack.compare y.toModel.unpack with
  | none =>
      rw [isOrdered] at isLe
      cases isLe
  | some order => exact isNumber_of_compare isOrdered

instance isTrans_le : IsTrans Float (· ≤ ·) where
  trans x y z isLe isNext := by
    have isX := (isNumber_of_le isLe).1
    have isY := (isNumber_of_le isLe).2
    have isZ := (isNumber_of_le isNext).2
    rw [le_iff_place_le isX isZ]
    rw [le_iff_place_le isX isY] at isLe
    rw [le_iff_place_le isY isZ] at isNext
    exact isLe.trans isNext

theorem lt_iff_not_le {x y : Float} (isNumber : x.isNaN = false) (otherIsNumber : y.isNaN = false) :
    x < y ↔ ¬y ≤ x := by
  rw [lt_iff_place_lt isNumber otherIsNumber, le_iff_place_le otherIsNumber isNumber, not_le]

end ComponentAtlas.Decimal
