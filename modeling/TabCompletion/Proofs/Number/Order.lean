import Mathlib.Algebra.Order.Field.Rat
import Mathlib.Algebra.Order.Ring.Cast
import Mathlib.Tactic.Ring
import TabCompletion.Number.Basic

/-!
The order of finite numbers is that of the rational numbers that they stand for.
-/

namespace TabCompletion.Number

/-- The rational number that a finite number stands for. -/
def value : Number → ℚ
  | .finite negative mantissa exponent =>
      (if negative then -(mantissa : ℚ) else mantissa) * (2 : ℚ) ^ exponent
  | _ => 0

theorem twoTo_cast (n : Nat) : ((twoTo n : Nat) : ℚ) = (2 : ℚ) ^ n := by
  change ((2 ^ n : Nat) : ℚ) = 2 ^ n
  push_cast
  rfl

/-- Moving a mantissa to a smaller exponent changes how the value is written only. -/
theorem aligned_value (negative : Bool) (mantissa : Nat) {exponent common : Int}
    (below : common ≤ exponent) :
    (aligned negative mantissa exponent common : ℚ) * (2 : ℚ) ^ common =
      value (.finite negative mantissa exponent) := by
  have gap : (2 : ℚ) ^ (exponent - common).toNat * (2 : ℚ) ^ common = (2 : ℚ) ^ exponent := by
    rw [← zpow_natCast, ← zpow_add₀ two_ne_zero, Int.toNat_of_nonneg (by omega)]
    congr 1
    omega
  cases negative <;> simp [aligned, value, twoTo_cast, ← gap] <;> ring

theorem compare?_finite {a b : Number} (finiteA : a.isFinite = true) (finiteB : b.isFinite = true) :
    compare? a b = some (compare a.value b.value) := by
  match a, b with
  | .finite s m e, .finite t n f =>
      have positive : (0 : ℚ) < (2 : ℚ) ^ (min e f) := zpow_pos two_pos _
      have left := aligned_value s m (min_le_left e f)
      have right := aligned_value t n (min_le_right e f)
      rw [compare?, ← left, ← right]
      rcases lt_trichotomy (aligned s m e (min e f)) (aligned t n f (min e f)) with less | same | more
      · rw [compare_lt_iff_lt.mpr less,
          compare_lt_iff_lt.mpr (mul_lt_mul_of_pos_right (Int.cast_lt.mpr less) positive)]
      · rw [same, compare_eq_iff_eq.mpr rfl, compare_eq_iff_eq.mpr rfl]
      · rw [compare_gt_iff_gt.mpr more,
          compare_gt_iff_gt.mpr (mul_lt_mul_of_pos_right (Int.cast_lt.mpr more) positive)]

theorem lt_iff_value {a b : Number} (finiteA : a.isFinite = true) (finiteB : b.isFinite = true) :
    a.lt b = true ↔ a.value < b.value := by
  rw [lt, compare?_finite finiteA finiteB, beq_iff_eq, Option.some_inj, compare_lt_iff_lt]

theorem eq_iff_value {a b : Number} (finiteA : a.isFinite = true) (finiteB : b.isFinite = true) :
    a.eq b = true ↔ a.value = b.value := by
  rw [eq, compare?_finite finiteA finiteB, beq_iff_eq, Option.some_inj, compare_eq_iff_eq]

end TabCompletion.Number
