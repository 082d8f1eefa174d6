import TabCompletion.Proofs.Number.Rounding

/-!
Steps of one. Where numbers have more than 53 bits before the point a step may be lost by rounding, and
then the number stays as it is. A step that is not lost covers at least a half.
-/

namespace TabCompletion.Number

theorem le_iff_value {a b : Number} (finiteA : a.isFinite = true) (finiteB : b.isFinite = true) :
    a.le b = true ↔ a.value ≤ b.value := by
  have less := lt_iff_value finiteA finiteB
  have same := eq_iff_value finiteA finiteB
  rw [lt] at less
  rw [eq] at same
  rw [le, Bool.or_eq_true, less, same, ← le_iff_lt_or_eq]

/-- Great numbers are whole. -/
theorem whole_of_large {x : Number} (held : Held x) (large : 2 ^ 52 ≤ |x.value|) :
    ∃ k : Int, x.value = k := by
  match x with
  | .finite s m e =>
      rcases le_or_gt 0 e with up | down
      · have exact := aligned_value s m up
        rw [zpow_zero, mul_one] at exact
        exact ⟨_, exact.symm⟩
      · -- With a fraction a mantissa of 53 bits stays below.
        exfalso
        have small : |value (.finite s m e)| < 2 ^ 52 := by
          have size : |value (.finite s m e)| = m * 2 ^ e := by
            rw [value_finite]
            cases s <;> simp [signed, abs_of_pos (two_zpow_pos e)]
          have few : (m : ℚ) < 2 ^ 53 := by exact_mod_cast held.1
          rw [size]
          calc (m : ℚ) * 2 ^ e < 2 ^ 53 * 2 ^ e := mul_lt_mul_of_pos_right few (two_zpow_pos e)
            _ ≤ 2 ^ 53 * 2 ^ (-1 : Int) :=
                mul_le_mul_of_nonneg_left (two_zpow_le (by omega)) (by positivity)
            _ = 2 ^ 52 := by norm_num
        linarith

theorem RoundsTo.isNumber {q : ℚ} {y : Number} (rounds : RoundsTo q y) : y.isNaN = false := by
  cases rounds with
  | near normal =>
      cases y with
      | finite => rfl
      | _ => exact normal.elim
  | beyond => rfl

/-- What lies between two numbers is rounded to a number between them. -/
theorem RoundsTo.between {q : ℚ} {y low high : Number} (rounds : RoundsTo q y) (heldLow : Held low)
    (heldHigh : Held high) (below : low.value ≤ q) (above : q ≤ high.value) :
    Normal y ∧ low.value ≤ y.value ∧ y.value ≤ high.value := by
  cases rounds with
  | near normal nearest =>
      constructor
      · exact normal
      constructor
      · by_contra! tooLow
        have closer := nearest low heldLow
        rw [abs_of_nonpos (by linarith), abs_of_nonpos (by linarith)] at closer
        linarith
      · by_contra! tooHigh
        have closer := nearest high heldHigh
        rw [abs_of_nonneg (by linarith), abs_of_nonneg (by linarith)] at closer
        linarith
  | @beyond negative beyond =>
      exfalso
      cases negative
      · exact absurd (beyond high heldHigh) (not_lt.mpr above)
      · exact absurd (beyond low heldLow) (not_lt.mpr below)

/-- Numbers and infinities are in order, one way or the other. -/
theorem le_or_le {a b : Number} (isA : a.isNaN = false) (isB : b.isNaN = false) :
    a.le b = true ∨ b.le a = true := by
  cases a with
  | nan => cases isA
  | infinite s =>
      cases b with
      | nan => cases isB
      | infinite t => cases s <;> cases t <;> decide
      | finite t n f => cases s <;> simp [le, compare?]
  | finite s m e =>
      cases b with
      | nan => cases isB
      | infinite t => cases t <;> simp [le, compare?]
      | finite t n f =>
          rw [le_iff_value rfl rfl, le_iff_value rfl rfl]
          exact le_total _ _

theorem abs_eq_of_large {x : Number} (held : Held x) (small : |x.value| ≤ 2 ^ 53)
    (large : 2 ^ 53 - 1 < |x.value|) : |x.value| = 2 ^ 53 := by
  obtain ⟨n, isN⟩ := whole_of_large held (by linarith)
  rw [isN] at small large ⊢
  have most : |n| ≤ 2 ^ 53 := by exact_mod_cast small
  have least : 2 ^ 53 - 1 < |n| := by exact_mod_cast large
  have same : |n| = 2 ^ 53 := by omega
  exact_mod_cast same

/-- A whole number that a step from another one comes near lies on the side of the step. -/
theorem whole_covers {σ : ℚ} (unit : σ = 1 ∨ σ = -1) {n k : Int} (differ : k ≠ n)
    (near : |(k : ℚ) - (n + σ)| ≤ 1) : 1 ≤ σ * (k - n) := by
  have bounds := abs_le.mp near
  rcases unit with rfl | rfl
  · have atLeast : (n : ℚ) ≤ k := by linarith
    have forward := lt_of_le_of_ne (Int.cast_le.mp atLeast) differ.symm
    have whole : (n : ℚ) + 1 ≤ k := by exact_mod_cast forward
    linarith
  · have atMost : (k : ℚ) ≤ n := by linarith
    have back := lt_of_le_of_ne (Int.cast_le.mp atMost) differ
    have whole : (k : ℚ) + 1 ≤ n := by exact_mod_cast back
    linarith

section Step

variable {x y : Number} {σ : ℚ} (unit : σ = 1 ∨ σ = -1) (rounds : RoundsTo (x.value + σ) y)

include unit rounds

/-- A step from a number in normal form leads to a number that is no further away than twice the step,
or beyond all numbers in the direction of the step. -/
theorem step_cases (normal : Normal x) :
    (Normal y ∧ |y.value - (x.value + σ)| ≤ 1) ∨ y = .infinite (σ < 0) := by
  cases rounds with
  | near isNormal nearest =>
      have closer := nearest x normal.held
      have length : |x.value - (x.value + σ)| = 1 := by
        rcases unit with rfl | rfl <;> norm_num
      exact Or.inl ⟨isNormal, length ▸ closer⟩
  | @beyond negative beyond =>
      have apart := beyond x normal.held
      rcases unit with rfl | rfl <;> cases negative
      · exact Or.inr (by norm_num)
      · rw [if_pos rfl] at apart
        linarith
      · rw [if_neg Bool.false_ne_true] at apart
        linarith
      · exact Or.inr (by norm_num)

/-- Below 53 bits a step is off by a half at most, because a whole number is that close. -/
theorem step_close (isFinite : y.isFinite = true) (small : |x.value| ≤ 2 ^ 53 - 1) :
    |y.value - (x.value + σ)| ≤ 1 / 2 := by
  cases rounds with
  | beyond => cases isFinite
  | near isNormal nearest =>
      have below := Int.floor_le (x.value + σ + 1 / 2)
      have above := Int.lt_floor_add_one (x.value + σ + 1 / 2)
      generalize ⌊x.value + σ + 1 / 2⌋ = k at below above
      have range := abs_le.mp small
      have few : |(k : ℚ)| < 2 ^ 53 + 1 := by
        rw [abs_lt]
        rcases unit with rfl | rfl <;> constructor <;> linarith
      have isFew := abs_lt.mp (show |k| < 2 ^ 53 + 1 by exact_mod_cast few)
      obtain ⟨z, held, isWhole⟩ := exists_held_whole (n := k) (by omega)
      have closer := nearest z held
      rw [isWhole] at closer
      apply closer.trans
      rw [abs_le]
      constructor <;> linarith

/-- Up to 53 bits a step stays among them and is not lost. -/
theorem step_small (normal : Normal x) (small : |x.value| ≤ 2 ^ 53) (before : σ * x.value < 2 ^ 53) :
    Normal y ∧ |y.value| ≤ 2 ^ 53 ∧ y.value ≠ x.value := by
  -- What is not below the last whole number but one is the end from which the step leads away.
  have inner : |x.value| ≤ 2 ^ 53 - 1 ∨ x.value = -(σ * 2 ^ 53) := by
    rcases le_or_gt |x.value| (2 ^ 53 - 1) with fewer | most
    · exact Or.inl fewer
    · have same := abs_eq_of_large normal.held small most
      rcases unit with rfl | rfl <;> rcases abs_cases x.value with ⟨isValue, -⟩ | ⟨isValue, -⟩
      · linarith
      · exact Or.inr (by linarith)
      · exact Or.inr (by linarith)
      · linarith
  have within : |x.value + σ| ≤ 2 ^ 53 := by
    rw [abs_le]
    rcases inner with fewer | isEnd
    · have range := abs_le.mp fewer
      rcases unit with rfl | rfl <;> constructor <;> linarith
    · rw [isEnd]
      rcases unit with rfl | rfl <;> norm_num
  have isLow : value (.finite true (2 ^ 52) 1) = -2 ^ 53 := by norm_num [value]
  have isHigh : value (.finite false (2 ^ 52) 1) = 2 ^ 53 := by norm_num [value]
  rw [abs_le, ← isLow, ← isHigh] at within
  have heldEnd (negative : Bool) : Held (.finite negative (2 ^ 52) 1) :=
    ⟨by norm_num, by decide, by decide⟩
  obtain ⟨isNormal, above, below⟩ :=
    rounds.between (heldEnd true) (heldEnd false) within.1 within.2
  rw [isLow] at above
  rw [isHigh] at below
  refine ⟨isNormal, abs_le.mpr ⟨above, below⟩, fun same => ?_⟩
  rcases inner with fewer | isEnd
  · have close := step_close unit rounds (isFinite_of_normal isNormal) fewer
    rw [same] at close
    rcases unit with rfl | rfl <;> norm_num at close
  · -- The step away from the end is exact.
    have held : Held (.finite (0 < σ) (2 ^ 53 - 1) 0) := ⟨by norm_num, by decide, by decide⟩
    have exact : value (.finite (0 < σ) (2 ^ 53 - 1) 0) = x.value + σ := by
      rw [isEnd]
      rcases unit with rfl | rfl <;> norm_num [value]
    obtain ⟨-, isSum⟩ := rounds.value_of_held held exact
    rw [same] at isSum
    rcases unit with rfl | rfl <;> linarith

/-- A step that leads to another number covers at least a half. -/
theorem step_covers (normal : Normal x) (isFinite : y.isFinite = true) (moves : y ≠ x) :
    1 / 2 ≤ σ * (y.value - x.value) := by
  rcases le_or_gt |x.value| (2 ^ 53 - 1) with small | large
  · have bounds := abs_le.mp (step_close unit rounds isFinite small)
    rcases unit with rfl | rfl <;> linarith
  · rcases step_cases unit rounds normal with ⟨isNormal, near⟩ | isInfinite
    · -- Both numbers are whole, and their values differ.
      have bounds := abs_le.mp near
      have largeToo : 2 ^ 52 ≤ |y.value| := by
        have through := abs_sub_abs_le_abs_sub x.value y.value
        have apart : |x.value - y.value| ≤ 2 := by
          rw [abs_le]
          rcases unit with rfl | rfl <;> constructor <;> linarith
        linarith
      obtain ⟨n, isN⟩ := whole_of_large normal.held (by linarith)
      obtain ⟨k, isK⟩ := whole_of_large isNormal.held largeToo
      have differ : k ≠ n := by
        rintro rfl
        have nonzero : y.value ≠ 0 := by
          intro zero
          rw [zero, abs_zero] at largeToo
          norm_num at largeToo
        exact moves (isNormal.eq_of_value normal (isK.trans isN.symm) nonzero)
      rw [isN, isK] at bounds ⊢
      have atLeast := whole_covers unit differ (abs_le.mpr bounds)
      linarith
    · rw [isInfinite] at isFinite
      cases isFinite

end Step

end TabCompletion.Number
