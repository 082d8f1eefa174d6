import Mathlib.Algebra.Order.Floor.Ring
import Mathlib.Data.Rat.Floor
import Mathlib.Tactic.Linarith
import Mathlib.Tactic.FieldSimp
import TabCompletion.Proofs.Number.Order

/-!
Rounding. The exact result of an operation is rounded once, to a number that is at least as close to it
as every other number. What follows for sums and whole numbers is derived from that, not from the way
in which mantissas are shifted.
-/

namespace TabCompletion.Number

/-! Powers of two and quotients. -/

theorem two_zpow_pos (e : Int) : (0 : ℚ) < 2 ^ e := zpow_pos two_pos e

theorem two_zpow_le {e f : Int} (le : e ≤ f) : (2 : ℚ) ^ e ≤ 2 ^ f :=
  zpow_le_zpow_right₀ one_le_two le

theorem two_zpow_add (e f : Int) : (2 : ℚ) ^ (e + f) = 2 ^ e * 2 ^ f := zpow_add₀ two_ne_zero e f

/-- A scaled quotient is the quotient times a power of two. -/
theorem scaled_value (num : Nat) {den : Nat} (positive : 0 < den) (shift : Int) :
    0 < (scaled num den shift).2 ∧
      ((scaled num den shift).1 : ℚ) / (scaled num den shift).2 = num / den * 2 ^ shift := by
  rw [scaled]
  split
  · rename_i up
    refine ⟨positive, ?_⟩
    obtain ⟨n, rfl⟩ := Int.eq_ofNat_of_zero_le up
    push_cast [twoTo_cast]
    simp only [Int.toNat_natCast, zpow_natCast]
    ring
  · rename_i down
    obtain ⟨n, isOpposite⟩ := Int.eq_ofNat_of_zero_le (show 0 ≤ -shift by omega)
    obtain rfl : shift = -(n : Int) := by omega
    refine ⟨Nat.mul_pos positive (Nat.pow_pos two_pos), ?_⟩
    push_cast [twoTo_cast]
    simp only [neg_neg, Int.toNat_natCast, zpow_neg, zpow_natCast]
    rw [div_mul_eq_div_div, div_eq_mul_inv ((num : ℚ) / den)]

theorem nearestEven_close (num : Nat) {den : Nat} (positive : 0 < den) :
    |(nearestEven num den : ℚ) - num / den| ≤ 1 / 2 := by
  have isPositive : (0 : ℚ) < den := by exact_mod_cast positive
  have whole : (num : ℚ) = den * (num / den : Nat) + (num % den : Nat) := by
    exact_mod_cast (Nat.div_add_mod num den).symm
  have split : (num : ℚ) / den = (num / den : Nat) + (num % den : Nat) / (den : ℚ) := by
    rw [div_eq_iff isPositive.ne', add_mul, div_mul_cancel₀ _ isPositive.ne', mul_comm]
    exact whole
  have below : ((num % den : Nat) : ℚ) / den < 1 := by
    rw [div_lt_one isPositive]
    exact_mod_cast Nat.mod_lt num positive
  have above : 0 ≤ ((num % den : Nat) : ℚ) / den := by positivity
  have half : ((num % den : Nat) : ℚ) / den ≤ 1 / 2 ↔ 2 * (num % den) ≤ den := by
    rw [div_le_iff₀ isPositive, ← Nat.cast_le (α := ℚ)]
    push_cast
    constructor <;> intro _ <;> linarith
  have otherHalf : 1 / 2 ≤ ((num % den : Nat) : ℚ) / den ↔ den ≤ 2 * (num % den) := by
    rw [le_div_iff₀ isPositive, ← Nat.cast_le (α := ℚ)]
    push_cast
    constructor <;> intro _ <;> linarith
  rw [split, nearestEven, abs_le]
  split_ifs with less more even
  · have short := half.mpr less.le
    constructor <;> linarith
  · have long := otherHalf.mpr more.le
    push_cast
    constructor <;> linarith
  · have short := half.mpr (not_lt.mp more)
    constructor <;> linarith
  · have long := otherHalf.mpr (not_lt.mp less)
    push_cast
    constructor <;> linarith

/-- A whole number within a half is as close as any other. -/
theorem nearest_of_close {k : Int} {q : ℚ} (close : |(k : ℚ) - q| ≤ 1 / 2) (z : Int) :
    |(k : ℚ) - q| ≤ |(z : ℚ) - q| := by
  by_contra! closer
  have gap : |((z - k : Int) : ℚ)| < 1 := by
    have through := abs_sub_le (z : ℚ) q k
    rw [abs_sub_comm q] at through
    push_cast
    linarith
  have same : z - k = 0 := Int.abs_lt_one_iff.mp (by exact_mod_cast gap)
  rw [show z = k by omega] at closer
  exact lt_irrefl _ closer

/-! The place of the last bit. -/

/-- The quotient of two numbers lies within a factor of two of the power that their sizes tell. -/
theorem quotient_bounds {num den : Nat} (nonzero : num ≠ 0) (positive : 0 < den) (e : Int) :
    (2 : ℚ) ^ ((Nat.log2 num : Int) - Nat.log2 den + e - 1) < num / den * 2 ^ e ∧
      (num : ℚ) / den * 2 ^ e < 2 ^ ((Nat.log2 num : Int) - Nat.log2 den + e + 1) := by
  have isPositive : (0 : ℚ) < den := by exact_mod_cast positive
  have numLow : (2 : ℚ) ^ (Nat.log2 num : Int) ≤ num := by
    rw [zpow_natCast]
    exact_mod_cast Nat.log2_self_le nonzero
  have numHigh : (num : ℚ) < 2 ^ ((Nat.log2 num : Int) + 1) := by
    exact_mod_cast Nat.lt_log2_self (n := num)
  have denLow : (2 : ℚ) ^ (Nat.log2 den : Int) ≤ den := by
    rw [zpow_natCast]
    exact_mod_cast Nat.log2_self_le positive.ne'
  have denHigh : (den : ℚ) < 2 ^ ((Nat.log2 den : Int) + 1) := by
    exact_mod_cast Nat.lt_log2_self (n := den)
  have numPositive : (0 : ℚ) < num := by exact_mod_cast Nat.pos_of_ne_zero nonzero
  constructor
  · have low := div_lt_div₀' numLow denHigh numPositive isPositive
    calc (2 : ℚ) ^ ((Nat.log2 num : Int) - Nat.log2 den + e - 1)
        = 2 ^ (Nat.log2 num : Int) / 2 ^ ((Nat.log2 den : Int) + 1) * 2 ^ e := by
          rw [← zpow_sub₀ two_ne_zero, ← two_zpow_add]
          congr 1
          ring
      _ < num / den * 2 ^ e := mul_lt_mul_of_pos_right low (two_zpow_pos e)
  · have high := div_lt_div₀ numHigh denLow (two_zpow_pos _).le (two_zpow_pos _)
    calc (num : ℚ) / den * 2 ^ e
        < 2 ^ ((Nat.log2 num : Int) + 1) / 2 ^ (Nat.log2 den : Int) * 2 ^ e :=
          mul_lt_mul_of_pos_right high (two_zpow_pos e)
      _ = 2 ^ ((Nat.log2 num : Int) - Nat.log2 den + e + 1) := by
          rw [← zpow_sub₀ two_ne_zero, ← two_zpow_add]
          congr 1
          ring

/-- Of two quantities the one with the greater exponent is greater, if its mantissa is full. -/
theorem lt_of_exponent_lt {m n : Nat} {e f : Int} (bits : m < 2 ^ 53) (full : 2 ^ 52 ≤ n)
    (less : e < f) : (m : ℚ) * 2 ^ e < n * 2 ^ f := by
  have few : (m : ℚ) < 2 ^ 53 := by exact_mod_cast bits
  have many : (2 : ℚ) ^ 52 ≤ n := by exact_mod_cast full
  calc (m : ℚ) * 2 ^ e < 2 ^ 53 * 2 ^ e := mul_lt_mul_of_pos_right few (two_zpow_pos e)
    _ = 2 ^ 52 * 2 ^ (e + 1) := by
        rw [zpow_add_one₀ two_ne_zero]
        ring
    _ ≤ n * 2 ^ f := mul_le_mul many (two_zpow_le (by omega)) (two_zpow_pos _).le (Nat.cast_nonneg n)

/-- A natural number and an exponent to which a quantity is rounded: in normal form, and at least as
close as all quantities with a mantissa of 53 bits. -/
structure Rounded (q : ℚ) (mantissa : Nat) (exponent : Int) : Prop where
  bits : mantissa < 2 ^ 53
  least : leastExponent ≤ exponent
  full : 2 ^ 52 ≤ mantissa ∨ exponent = leastExponent
  nearest : ∀ (n : Nat) (f : Int), n < 2 ^ 53 → leastExponent ≤ f →
    |(mantissa : ℚ) * 2 ^ exponent - q| ≤ |(n : ℚ) * 2 ^ f - q|

/-- What lies below the multiples of a unit is farther than the nearest multiple. -/
theorem nearest_multiple {q : ℚ} {k : Nat} {t : Int} (close : |(k : ℚ) - q / 2 ^ t| ≤ 1 / 2)
    (full : t = leastExponent ∨ 2 ^ 52 * 2 ^ t ≤ q) {n : Nat} {f : Int} (bits : n < 2 ^ 53)
    (least : leastExponent ≤ f) : |(k : ℚ) * 2 ^ t - q| ≤ |(n : ℚ) * 2 ^ f - q| := by
  have unit := two_zpow_pos t
  have multiple : ∀ z : Int, |(k : ℚ) * 2 ^ t - q| ≤ |(z : ℚ) * 2 ^ t - q| := by
    intro z
    have scaled : ∀ x : ℚ, |x * 2 ^ t - q| = |x - q / 2 ^ t| * 2 ^ t := by
      intro x
      rw [← abs_of_pos unit, ← abs_mul, abs_of_pos unit, sub_mul, div_mul_cancel₀ _ unit.ne']
    rw [scaled, scaled]
    exact mul_le_mul_of_nonneg_right (nearest_of_close (k := k) (by exact_mod_cast close) z) unit.le
  rcases le_or_gt t f with coarse | fine
  · have moved : ((n * 2 ^ (f - t).toNat : Int) : ℚ) * 2 ^ t = n * 2 ^ f := by
      push_cast
      rw [mul_assoc, ← zpow_natCast, ← two_zpow_add, Int.toNat_of_nonneg (by omega)]
      congr 2
      omega
    rw [← moved]
    exact multiple _
  · -- A finer quantity lies below the least full mantissa, which is a multiple.
    have atLeast := full.resolve_left (by omega)
    have below : (n : ℚ) * 2 ^ f ≤ 2 ^ 52 * 2 ^ t := by
      have few : (n : ℚ) ≤ 2 ^ 53 := by exact_mod_cast bits.le
      have half : (2 : ℚ) ^ 53 * 2 ^ (t - 1) = 2 ^ 52 * 2 ^ t := by
        rw [zpow_sub_one₀ two_ne_zero]
        ring
      rw [← half]
      exact mul_le_mul few (two_zpow_le (by omega)) (two_zpow_pos f).le (by positivity)
    refine (multiple (2 ^ 52)).trans ?_
    push_cast
    rw [abs_of_nonpos (by linarith), abs_of_nonpos (by linarith)]
    linarith

theorem rounded_of_close {q : ℚ} {k : Nat} {t : Int} (close : |(k : ℚ) - q / 2 ^ t| ≤ 1 / 2)
    (full : t = leastExponent ∨ 2 ^ 52 * 2 ^ t ≤ q) (below : q < 2 ^ 53 * 2 ^ t)
    (least : leastExponent ≤ t) :
    Rounded q (if k = 2 ^ 53 then 2 ^ 52 else k) (if k = 2 ^ 53 then t + 1 else t) := by
  have unit := two_zpow_pos t
  have small : q / 2 ^ t < 2 ^ 53 := by
    rwa [div_lt_iff₀ unit]
  have most : k ≤ 2 ^ 53 := by
    have bounds := abs_le.mp close
    have below : (k : ℚ) < 2 ^ 53 + 1 := by linarith
    exact Nat.lt_succ_iff.mp (by exact_mod_cast below)
  split_ifs with carry
  · refine ⟨by norm_num, by omega, Or.inl le_rfl, fun n f bits isLeast => ?_⟩
    have same : ((2 ^ 52 : Nat) : ℚ) * 2 ^ (t + 1) = k * 2 ^ t := by
      rw [carry, zpow_add_one₀ two_ne_zero]
      push_cast
      ring
    rw [same]
    exact nearest_multiple close full bits isLeast
  · refine ⟨by omega, least, ?_, fun n f bits isLeast => nearest_multiple close full bits isLeast⟩
    refine full.symm.imp_left fun atLeast => ?_
    have large : (2 : ℚ) ^ 52 ≤ q / 2 ^ t := by rwa [le_div_iff₀ unit]
    have bounds := abs_le.mp close
    have above : (2 : ℚ) ^ 52 - 1 < k := by linarith
    have isAbove : ((2 ^ 52 - 1 : Nat) : ℚ) < k := by
      push_cast
      linarith
    exact Nat.le_of_pred_lt (by exact_mod_cast isAbove)

/-- The exponent to which a quotient is rounded. -/
def targetOf (num den : Nat) (e : Int) : Int :=
  let coarse := max leastExponent ((Nat.log2 num : Int) - Nat.log2 den + e - 53)
  let (n, d) := scaled num den (e - coarse)
  if twoTo 53 ≤ n / d then coarse + 1 else coarse

theorem round_eq (negative : Bool) {num : Nat} (nonzero : num ≠ 0) (den : Nat) (e : Int) :
    round negative num den e =
      let t := targetOf num den e
      let k := nearestEven (scaled num den (e - t)).1 (scaled num den (e - t)).2
      if 971 < (if k = 2 ^ 53 then t + 1 else t) then .infinite negative
      else .finite negative (if k = 2 ^ 53 then 2 ^ 52 else k) (if k = 2 ^ 53 then t + 1 else t) := by
  rw [round, if_neg nonzero]
  simp only [targetOf]
  split <;> split <;> simp_all [twoTo]

/-- At the target the quotient has 53 bits, or fewer at the least exponent. -/
theorem targetOf_bounds {num den : Nat} (nonzero : num ≠ 0) (positive : 0 < den) (e : Int) :
    leastExponent ≤ targetOf num den e ∧
      (num : ℚ) / den * 2 ^ e < 2 ^ 53 * 2 ^ targetOf num den e ∧
      (targetOf num den e = leastExponent ∨
        2 ^ 52 * 2 ^ targetOf num den e ≤ (num : ℚ) / den * 2 ^ e) := by
  obtain ⟨low, high⟩ := quotient_bounds nonzero positive e
  rw [targetOf]
  dsimp only
  generalize (Nat.log2 num : Int) - Nat.log2 den + e = size at low high ⊢
  generalize isCoarse : max leastExponent (size - 53) = coarse
  have unit := two_zpow_pos coarse
  obtain ⟨isPositive, isScaled⟩ := scaled_value num positive (e - coarse)
  rw [zpow_sub₀ two_ne_zero, ← mul_div_assoc] at isScaled
  have reaches : twoTo 53 ≤ (scaled num den (e - coarse)).1 / (scaled num den (e - coarse)).2 ↔
      2 ^ 53 * 2 ^ coarse ≤ (num : ℚ) / den * 2 ^ e := by
    rw [← le_div_iff₀ unit, ← isScaled, le_div_iff₀ (by exact_mod_cast isPositive),
      Nat.le_div_iff_mul_le isPositive, ← Nat.cast_le (α := ℚ)]
    push_cast [twoTo_cast]
    rfl
  have next : (2 : ℚ) ^ (coarse + 1) = 2 * 2 ^ coarse := by
    rw [zpow_add_one₀ two_ne_zero, mul_comm]
  split_ifs with large
  · have atLeast := reaches.mp large
    refine ⟨by omega, ?_, Or.inr (by rw [next]; linarith)⟩
    have most := high.trans_le (two_zpow_le (show size + 1 ≤ 53 + (coarse + 1) by omega))
    rw [two_zpow_add] at most
    exact_mod_cast most
  · refine ⟨by omega, not_le.mp (mt reaches.mpr large), ?_⟩
    rcases le_total (size - 53) leastExponent with small | full
    · exact Or.inl (by omega)
    · have atLeast := (two_zpow_le (show 52 + coarse ≤ size - 1 by omega)).trans low.le
      rw [two_zpow_add] at atLeast
      exact Or.inr (by exact_mod_cast atLeast)

/-- The result of rounding a quotient is in normal form and nearest, unless its exponent is too great. -/
theorem round_rounded (negative : Bool) (num : Nat) {den : Nat} (positive : 0 < den) (e : Int) :
    ∃ m t, Rounded (num / den * 2 ^ e) m t ∧
      round negative num den e = if 971 < t then .infinite negative else .finite negative m t := by
  by_cases zero : num = 0
  · refine ⟨0, leastExponent, ⟨by norm_num, le_rfl, Or.inr rfl, fun n f _ _ => ?_⟩, ?_⟩
    · simp only [zero, Nat.cast_zero, zero_div, zero_mul, sub_zero, abs_zero]
      exact abs_nonneg _
    · rw [round, if_pos zero, if_neg (by decide)]
  · obtain ⟨least, below, full⟩ := targetOf_bounds zero positive e
    obtain ⟨isPositive, isScaled⟩ := scaled_value num positive (e - targetOf num den e)
    have close := nearestEven_close (scaled num den (e - targetOf num den e)).1 isPositive
    rw [isScaled, zpow_sub₀ two_ne_zero, ← mul_div_assoc] at close
    exact ⟨_, _, rounded_of_close close full below least, round_eq negative zero den e⟩

/-! Rounded numbers. -/

/-- A finite number of at most 53 bits whose exponent is in range. -/
def Held : Number → Prop
  | .finite _ mantissa exponent =>
      mantissa < 2 ^ 53 ∧ leastExponent ≤ exponent ∧ exponent ≤ 971
  | _ => False

/-- A held number in the form that arithmetic gives it. -/
def Normal : Number → Prop
  | .finite _ mantissa exponent =>
      mantissa < 2 ^ 53 ∧ leastExponent ≤ exponent ∧ exponent ≤ 971 ∧
        (2 ^ 52 ≤ mantissa ∨ exponent = leastExponent)
  | _ => False

theorem Normal.held {x : Number} (normal : Normal x) : Held x := by
  cases x with
  | finite s m e => exact ⟨normal.1, normal.2.1, normal.2.2.1⟩
  | _ => exact normal

/-- The number that an exact result is rounded to: a nearest one, or an infinity where the result lies
beyond all numbers. -/
inductive RoundsTo (q : ℚ) : Number → Prop
  | near {y : Number} (normal : Normal y)
      (nearest : ∀ x, Held x → |y.value - q| ≤ |x.value - q|) : RoundsTo q y
  | beyond {negative : Bool} (beyond : ∀ x, Held x → if negative then q < x.value else x.value < q) :
      RoundsTo q (.infinite negative)

def signed (negative : Bool) (q : ℚ) : ℚ := if negative then -q else q

theorem signed_distance (negative : Bool) (x q : ℚ) :
    |signed negative x - signed negative q| = |x - q| := by
  cases negative with
  | false => rfl
  | true =>
      change |-x - -q| = |x - q|
      rw [neg_sub_neg, abs_sub_comm]

theorem opposite_distance {s negative : Bool} (opposite : s ≠ negative) {x q : ℚ} (isX : 0 ≤ x)
    (isQ : 0 ≤ q) : |signed s x - signed negative q| = x + q := by
  cases s <;> cases negative
  · exact absurd rfl opposite
  · change |x - -q| = x + q
    rw [abs_of_nonneg (by linarith)]
    ring
  · change |-x - q| = x + q
    rw [abs_of_nonpos (by linarith)]
    ring
  · exact absurd rfl opposite

theorem value_finite (negative : Bool) (m : Nat) (e : Int) :
    value (.finite negative m e) = signed negative (m * 2 ^ e) := by
  cases negative <;> simp [value, signed]

theorem magnitude_nonneg (m : Nat) (e : Int) : (0 : ℚ) ≤ m * 2 ^ e :=
  mul_nonneg (Nat.cast_nonneg m) (two_zpow_pos e).le

/-- A quantity that is rounded beyond the greatest exponent is greater than every number. -/
theorem Rounded.beyond {q : ℚ} {m : Nat} {t : Int} (rounded : Rounded q m t) (beyond : 971 < t)
    {n : Nat} {f : Int} (bits : n < 2 ^ 53) (least : leastExponent ≤ f) (most : f ≤ 971) :
    (n : ℚ) * 2 ^ f < q := by
  have isFull : 2 ^ 52 ≤ m := by
    refine rounded.full.resolve_right fun isLeast => ?_
    rw [isLeast] at beyond
    exact absurd beyond (by decide)
  have great := lt_of_exponent_lt bits isFull (most.trans_lt beyond)
  have closer := rounded.nearest n f bits least
  by_contra! above
  rw [abs_of_nonneg (by linarith), abs_of_nonneg (by linarith)] at closer
  linarith

/-- A quantity that is rounded to a number in range is rounded to a nearest one of either sign. -/
theorem Rounded.near {q : ℚ} {m : Nat} {t : Int} (rounded : Rounded q m t) (isQuantity : 0 ≤ q)
    (negative s : Bool) {n : Nat} {f : Int} (bits : n < 2 ^ 53) (least : leastExponent ≤ f) :
    |signed negative (m * 2 ^ t) - signed negative q| ≤
      |signed s (n * 2 ^ f) - signed negative q| := by
  rw [signed_distance]
  by_cases same : s = negative
  · rw [same, signed_distance]
    exact rounded.nearest n f bits least
  · -- A number of the other sign is farther than zero.
    have zero := rounded.nearest 0 f (by norm_num) least
    rw [Nat.cast_zero, zero_mul, zero_sub, abs_neg, abs_of_nonneg isQuantity] at zero
    rw [opposite_distance same (magnitude_nonneg n f) isQuantity]
    exact zero.trans (le_add_of_nonneg_left (magnitude_nonneg n f))

theorem roundsTo_round (negative : Bool) (num : Nat) {den : Nat} (positive : 0 < den) (e : Int) :
    RoundsTo (signed negative (num / den * 2 ^ e)) (round negative num den e) := by
  obtain ⟨m, t, rounded, isRound⟩ := round_rounded negative num positive e
  have isQuantity : (0 : ℚ) ≤ num / den * 2 ^ e :=
    mul_nonneg (by positivity) (two_zpow_pos e).le
  generalize (num : ℚ) / den * 2 ^ e = q at rounded isQuantity
  rw [isRound]
  split_ifs with beyond
  · apply RoundsTo.beyond
    intro x held
    match x with
    | .finite s n f =>
        have below := rounded.beyond beyond held.1 held.2.1 held.2.2
        have least := magnitude_nonneg n f
        rw [value_finite]
        cases negative <;> cases s <;>
          simp only [signed, if_true, if_false, Bool.false_eq_true] <;> linarith
  · refine .near ⟨rounded.bits, rounded.least, by omega, rounded.full⟩ fun x held => ?_
    match x with
    | .finite s n f =>
        rw [value_finite, value_finite]
        exact rounded.near isQuantity negative s held.1 held.2.1

section RoundsTo

variable {q : ℚ} {y : Number} (rounds : RoundsTo q y)

include rounds

/-- A number that is held is rounded to itself. -/
theorem RoundsTo.value_of_held {x : Number} (held : Held x) (exact : x.value = q) :
    Normal y ∧ y.value = q := by
  cases rounds with
  | near normal nearest =>
      have closest := nearest x held
      rw [exact, sub_self, abs_zero] at closest
      exact ⟨normal, sub_eq_zero.mp (abs_nonpos_iff.mp closest)⟩
  | @beyond negative beyond =>
      have apart := beyond x held
      rw [exact] at apart
      cases negative <;> exact absurd apart (lt_irrefl _)

theorem RoundsTo.normal (isFinite : y.isFinite = true) : Normal y := by
  cases rounds with
  | near normal => exact normal
  | beyond => cases isFinite

end RoundsTo

/-! Whole numbers and sums. -/

theorem signed_natAbs (z : Int) (q : ℚ) : signed (z < 0) (z.natAbs * q) = z * q := by
  rcases lt_or_ge z 0 with negative | positive
  · have magnitude : (z.natAbs : ℚ) = -z := by
      rw [Nat.cast_natAbs, abs_of_neg negative, Int.cast_neg]
    rw [decide_eq_true negative, magnitude, signed, if_pos rfl, neg_mul, neg_neg]
  · have magnitude : (z.natAbs : ℚ) = z := by rw [Nat.cast_natAbs, abs_of_nonneg positive]
    rw [decide_eq_false (not_lt.mpr positive), magnitude]
    rfl

theorem roundsTo_shifted (z : Int) (e : Int) :
    RoundsTo (z * 2 ^ e) (round (z < 0) z.natAbs 1 e) := by
  have rounds := roundsTo_round (z < 0) z.natAbs Nat.one_pos e
  rwa [Nat.cast_one, div_one, signed_natAbs] at rounds

theorem roundsTo_ofInt (n : Int) : RoundsTo n (ofInt n) := by
  have rounds := roundsTo_shifted n 0
  rwa [zpow_zero, mul_one] at rounds

/-- A sum is its exact value, rounded. -/
theorem roundsTo_add {a b : Number} (finiteA : a.isFinite = true) (finiteB : b.isFinite = true) :
    RoundsTo (a.value + b.value) (a.add b) := by
  match a, b with
  | .finite s m e, .finite t n f =>
      have exact := aligned_value s m (min_le_left e f)
      have exactToo := aligned_value t n (min_le_right e f)
      rw [add, ← exact, ← exactToo, ← add_mul, ← Int.cast_add]
      split_ifs with zero
      · rw [zero, Int.cast_zero, zero_mul]
        refine .near ⟨by norm_num, le_rfl, by decide, Or.inr rfl⟩ fun x _ => ?_
        rw [value_finite, Nat.cast_zero, zero_mul]
        cases s && t <;> simp [signed]
      · exact roundsTo_shifted _ _

/-- A whole number of at most 53 bits is held. -/
theorem exists_held_whole {n : Int} (small : n.natAbs ≤ 2 ^ 53) : ∃ x, Held x ∧ x.value = n := by
  rcases Nat.lt_or_eq_of_le small with fewer | most
  · refine ⟨.finite (n < 0) n.natAbs 0, ⟨fewer, by decide, by decide⟩, ?_⟩
    rw [value_finite, signed_natAbs, zpow_zero, mul_one]
  · refine ⟨.finite (n < 0) (2 ^ 52) 1, ⟨by norm_num, by decide, by decide⟩, ?_⟩
    have half : ((2 ^ 52 : Nat) : ℚ) * 2 ^ (1 : Int) = n.natAbs * 1 := by
      rw [most]
      norm_num
    rw [value_finite, half, signed_natAbs, mul_one]

/-! Normal form. -/

theorem isFinite_of_normal {x : Number} (normal : Normal x) : x.isFinite = true := by
  cases x with
  | finite s m e => rfl
  | _ => exact normal.elim

theorem exponent_le_of_value {m n : Nat} {e f : Int} (full : 2 ^ 52 ≤ n ∨ f = leastExponent)
    (bits : m < 2 ^ 53) (least : leastExponent ≤ e) (same : (m : ℚ) * 2 ^ e = n * 2 ^ f) :
    f ≤ e := by
  by_contra! greater
  have isFull := full.resolve_right (by omega)
  exact (lt_of_exponent_lt bits isFull greater).ne same

/-- Two numbers in normal form that stand for the same quantity are the same, unless they are zero. -/
theorem Normal.eq_of_value {x y : Number} (normal : Normal x) (isNormal : Normal y)
    (same : x.value = y.value) (nonzero : x.value ≠ 0) : x = y := by
  match x, y with
  | .finite s m e, .finite t n f =>
      obtain ⟨bits, least, -, full⟩ := normal
      obtain ⟨bitsToo, leastToo, -, fullToo⟩ := isNormal
      rw [value_finite] at same nonzero
      rw [value_finite] at same
      have isM := magnitude_nonneg m e
      have isN := magnitude_nonneg n f
      have sameSign : s = t := by
        cases s <;> cases t <;> simp only [signed, if_true, Bool.false_eq_true, if_false] at same nonzero
        · rfl
        · exact absurd (by linarith) nonzero
        · exact absurd (by linarith) nonzero
        · rfl
      subst sameSign
      have sameSize : (m : ℚ) * 2 ^ e = n * 2 ^ f := by
        cases s <;> simpa [signed] using same
      have sameExponent : e = f :=
        le_antisymm (exponent_le_of_value full bitsToo leastToo sameSize.symm)
          (exponent_le_of_value fullToo bits least sameSize)
      subst sameExponent
      have sameMantissa : m = n := by
        exact_mod_cast mul_right_cancel₀ (two_zpow_pos e).ne' sameSize
      rw [sameMantissa]

/-! Whole parts. -/

/-- The whole part of a number is that of the quantity that it stands for. -/
theorem floorInt_eq (negative : Bool) (m : Nat) (e : Int) :
    floorInt negative m e = ⌊value (.finite negative m e)⌋ := by
  rw [floorInt]
  split
  · rename_i up
    have exact := aligned_value negative m up
    rw [zpow_zero, mul_one] at exact
    rw [← exact, Int.floor_intCast]
  · rename_i down
    obtain ⟨n, isOpposite⟩ := Int.eq_ofNat_of_zero_le (show 0 ≤ -e by omega)
    obtain rfl : e = -(n : Int) := by omega
    have quotient : value (.finite negative m (-(n : Int))) =
        ((if negative then -(m : Int) else m : Int) : ℚ) / (twoTo n : Nat) := by
      rw [value, zpow_neg, zpow_natCast, ← twoTo_cast, ← div_eq_mul_inv]
      cases negative <;> simp
    rw [quotient, Rat.floor_intCast_div_natCast, isOpposite, Int.toNat_natCast]
    exact Int.fdiv_eq_ediv_of_nonneg _ (Int.natCast_nonneg _)

/-- A held number is the whole number that it stands for. -/
theorem toInt?_of_value {x : Number} (held : Held x) {n : Int} (isValue : x.value = n) :
    x.toInt? = some n := by
  match x with
  | .finite s m e =>
      have whole : floorInt s m e = n := by rw [floorInt_eq, isValue, Int.floor_intCast]
      obtain ⟨normal, same⟩ := (roundsTo_ofInt n).value_of_held held isValue
      have equal : eq (ofInt n) (.finite s m e) = true :=
        (eq_iff_value (isFinite_of_normal normal) rfl).mpr (same.trans isValue.symm)
      rw [toInt?, whole, if_pos equal]

/-- The whole part of a held number is held: it is the number itself or has no more bits. -/
theorem exists_held_floor {x : Number} (held : Held x) : ∃ y, Held y ∧ y.value = ⌊x.value⌋ := by
  match x with
  | .finite s m e =>
      by_cases up : 0 ≤ e
      · have exact := aligned_value s m up
        rw [zpow_zero, mul_one] at exact
        refine ⟨.finite s m e, held, ?_⟩
        rw [← exact, Int.floor_intCast]
      · apply exists_held_whole
        rw [← floorInt_eq, floorInt, if_neg up]
        dsimp only
        rw [Int.fdiv_eq_ediv_of_nonneg _ (Int.natCast_nonneg _)]
        refine (Int.natAbs_ediv_le_natAbs _ _).trans ?_
        have bits := held.1.le
        cases s <;> simpa using bits

/-- Rounding down gives the whole part. -/
theorem floor_value {x : Number} (held : Held x) : Held x.floor ∧ x.floor.value = ⌊x.value⌋ := by
  match x with
  | .finite s m e =>
      rw [floor]
      split
      · rename_i zero
        refine ⟨held, ?_⟩
        rw [zero, value_finite, Nat.cast_zero, zero_mul]
        cases s <;> simp [signed]
      · obtain ⟨y, heldToo, isWhole⟩ := exists_held_floor held
        rw [floorInt_eq]
        obtain ⟨normal, same⟩ := (roundsTo_ofInt _).value_of_held heldToo isWhole
        exact ⟨normal.held, same⟩

end TabCompletion.Number
