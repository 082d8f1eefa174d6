import Mathlib.Algebra.Order.Archimedean.Basic
import TabCompletion.Evaluation.Evaluate
import TabCompletion.Proofs.Number.Steps

/-!
The loop of a range. It takes one turn after another until it has passed the last number, and nothing else
bounds it: it goes on without end towards an infinity, from an infinity, and at a number that is so great
that a step is lost in it.
-/

namespace TabCompletion.Evaluation

open Number (Normal RoundsTo roundsTo_add)

/-! Turns. -/

section Turns

variable {step last : Number} {within : Number → Number → Bool}

/-- The loop ends, and these are the numbers that it has gone through. -/
inductive Counts (step last : Number) (within : Number → Number → Bool) : Number → List Value → Prop
  | ends {i : Number} (outside : within i last = false) : Counts step last within i []
  | turn {i : Number} {values : List Value} (inside : within i last = true)
      (rest : Counts step last within (i.add step) values) :
      Counts step last within i (.number i :: values)

/-- The loop comes to a number that a step leaves as it is. -/
inductive Sticks (step last : Number) (within : Number → Number → Bool) : Number → Prop
  | here {i : Number} (inside : within i last = true) (stuck : i.add step = i) :
      Sticks step last within i
  | turn {i : Number} (inside : within i last = true) (later : Sticks step last within (i.add step)) :
      Sticks step last within i

theorem Counts.nil_of_outside {i : Number} {values : List Value}
    (counts : Counts step last within i values) (outside : within i last = false) : values = [] := by
  cases counts with
  | ends => rfl
  | turn inside =>
      rw [outside] at inside
      cases inside

theorem Counts.moves {i : Number} {values : List Value} (counts : Counts step last within i values)
    (inside : within i last = true) : i.add step ≠ i := by
  induction counts with
  | ends outside =>
      rw [outside] at inside
      cases inside
  | turn _ _ ih =>
      intro stuck
      rw [stuck] at ih
      exact ih inside stuck

theorem Sticks.not_counts {i : Number} (sticks : Sticks step last within i) (values : List Value) :
    ¬Counts step last within i values := by
  induction sticks generalizing values with
  | here inside stuck => exact fun counts => counts.moves inside stuck
  | turn inside _ ih =>
      intro counts
      cases counts with
      | ends outside =>
          rw [outside] at inside
          cases inside
      | turn _ rest => exact ih _ rest

theorem countFrom_outside {i : Number} (outside : within i last = false) (fuel : Nat)
    (counted : List Value) : countFrom step last within fuel i counted = some counted.reverse := by
  cases fuel <;> simp [countFrom, outside]

theorem countFrom_zero {i : Number} (inside : within i last = true) (counted : List Value) :
    countFrom step last within 0 i counted = none := by
  simp [countFrom, inside]

theorem countFrom_stuck {i : Number} (inside : within i last = true) (stuck : i.add step = i)
    (fuel : Nat) (counted : List Value) : countFrom step last within fuel i counted = none := by
  cases fuel <;> simp [countFrom, inside, stuck]

theorem countFrom_turn {i : Number} (inside : within i last = true) (moves : i.add step ≠ i)
    (fuel : Nat) (counted : List Value) :
    countFrom step last within (fuel + 1) i counted =
      countFrom step last within fuel (i.add step) (.number i :: counted) := by
  rw [countFrom]
  simp only [inside, moves, if_true, if_false]

/-- Whatever is counted within the given turns is what the loop goes through. -/
theorem countFrom_counts {fuel : Nat} {i : Number} {counted values : List Value}
    (done : countFrom step last within fuel i counted = some values) :
    ∃ rest, Counts step last within i rest ∧ values = counted.reverse ++ rest := by
  induction fuel generalizing i counted with
  | zero =>
      cases inside : within i last with
      | false =>
          rw [countFrom_outside inside] at done
          cases done
          exact ⟨[], .ends inside, by simp⟩
      | true =>
          rw [countFrom_zero inside] at done
          cases done
  | succ fuel ih =>
      cases inside : within i last with
      | false =>
          rw [countFrom_outside inside] at done
          cases done
          exact ⟨[], .ends inside, by simp⟩
      | true =>
          by_cases stuck : i.add step = i
          · rw [countFrom_stuck inside stuck] at done
            cases done
          · rw [countFrom_turn inside stuck] at done
            obtain ⟨rest, counts, isValues⟩ := ih done
            exact ⟨.number i :: rest, .turn inside counts, by simp [isValues]⟩

/-- A loop that ends is counted within its turns. -/
theorem Counts.countFrom_eq {i : Number} {rest : List Value} (counts : Counts step last within i rest)
    {fuel : Nat} (enough : rest.length ≤ fuel) (counted : List Value) :
    countFrom step last within fuel i counted = some (counted.reverse ++ rest) := by
  induction counts generalizing fuel counted with
  | ends outside => rw [countFrom_outside outside, List.append_nil]
  | turn inside rest ih =>
      have moves := (Counts.turn inside rest).moves inside
      cases fuel with
      | zero => cases enough
      | succ fuel =>
          rw [countFrom_turn inside moves, ih (Nat.le_of_succ_le_succ enough)]
          simp

end Turns

/-! Directions. -/

/-- A step of one and the condition of the loop that goes with it. -/
structure Direction (σ : ℚ) (step : Number) (within : Number → Number → Bool) : Prop where
  unit : σ = 1 ∨ σ = -1
  isFinite : step.isFinite = true
  isStep : step.value = σ
  inside : ∀ {i last : Number}, i.isFinite = true → last.isFinite = true →
    (within i last = true ↔ 0 ≤ σ * (last.value - i.value))
  beyond : ∀ {last : Number}, last.isFinite = true → within (.infinite (σ < 0)) last = false
  lost : (Number.finite (σ < 0) (2 ^ 52) 1).add step = .finite (σ < 0) (2 ^ 52) 1

theorem upward : Direction 1 (.ofNat 1) Number.le where
  unit := Or.inl rfl
  isFinite := by decide
  isStep := by
    have one : Number.ofNat 1 = .finite false (2 ^ 52) (-52) := by decide
    norm_num [one, Number.value]
  inside finiteI finiteLast := by
    rw [Number.le_iff_value finiteI finiteLast, one_mul, sub_nonneg]
  beyond {last} isFinite := by
    cases last with
    | finite => norm_num [Number.le, Number.compare?]
    | _ => cases isFinite
  lost := by
    rw [decide_eq_false (by norm_num)]
    decide

theorem downward : Direction (-1) (.ofInt (-1)) fun i last => last.le i where
  unit := Or.inr rfl
  isFinite := by decide
  isStep := by
    have one : Number.ofInt (-1) = .finite true (2 ^ 52) (-52) := by decide
    norm_num [one, Number.value]
  inside finiteI finiteLast := by
    rw [Number.le_iff_value finiteLast finiteI]
    constructor <;> intro _ <;> linarith
  beyond {last} isFinite := by
    cases last with
    | finite => norm_num [Number.le, Number.compare?]
    | _ => cases isFinite
  lost := by
    rw [decide_eq_true (by norm_num)]
    decide

section Direction

variable {σ : ℚ} {step last : Number} {within : Number → Number → Bool}
  (direction : Direction σ step within)

include direction

theorem Direction.rounds {i : Number} (isFinite : i.isFinite = true) :
    RoundsTo (i.value + σ) (i.add step) :=
  direction.isStep ▸ roundsTo_add isFinite direction.isFinite

/-- From a number in normal form a turn covers at least a half or passes all numbers. -/
theorem Direction.turn_cases {i : Number} (normal : Normal i) (isFinite : last.isFinite = true)
    (moves : i.add step ≠ i) :
    (Normal (i.add step) ∧ 1 / 2 ≤ σ * ((i.add step).value - i.value)) ∨
      within (i.add step) last = false := by
  have rounds := direction.rounds (Number.isFinite_of_normal normal)
  rcases Number.step_cases direction.unit rounds normal with ⟨isNormal, -⟩ | isInfinite
  · exact Or.inl ⟨isNormal, Number.step_covers direction.unit rounds normal
      (Number.isFinite_of_normal isNormal) moves⟩
  · rw [isInfinite]
    exact Or.inr (direction.beyond isFinite)

/-- The turns from a number on are at most twice the way that is left, and one more. -/
theorem Direction.length_le {i : Number} (normal : Normal i) (isFinite : last.isFinite = true)
    {values : List Value} (counts : Counts step last within i values) :
    (values.length : ℚ) ≤ max 0 (2 * (σ * (last.value - i.value)) + 1) := by
  induction counts with
  | ends => exact le_max_left _ _
  | @turn i values inside rest ih =>
      have ahead := (direction.inside (Number.isFinite_of_normal normal) isFinite).mp inside
      apply le_max_of_le_right
      rw [List.length_cons, Nat.cast_succ]
      rcases direction.turn_cases normal isFinite ((Counts.turn inside rest).moves inside) with
        ⟨isNormal, covers⟩ | outside
      · have shorter := ih isNormal
        have less : max 0 (2 * (σ * (last.value - (i.add step).value)) + 1) ≤
            2 * (σ * (last.value - i.value)) := by
          apply max_le
          · linarith
          · linarith
        linarith
      · rw [rest.nil_of_outside outside]
        simp only [List.length_nil, Nat.cast_zero]
        linarith

/-- From a number in normal form the loop ends, or comes to a number at which it stays. -/
theorem Direction.counts_or_sticks {i : Number} (normal : Normal i) (isFinite : last.isFinite = true) :
    (∃ values, Counts step last within i values) ∨ Sticks step last within i := by
  obtain ⟨k, few⟩ := exists_nat_gt (2 * (σ * (last.value - i.value)))
  induction k generalizing i with
  | zero =>
      have outside : within i last = false := by
        rw [Bool.eq_false_iff, ne_eq, direction.inside (Number.isFinite_of_normal normal) isFinite]
        intro ahead
        rw [Nat.cast_zero] at few
        linarith
      exact Or.inl ⟨[], .ends outside⟩
  | succ k ih =>
      cases inside : within i last with
      | false => exact Or.inl ⟨[], .ends inside⟩
      | true =>
          by_cases stuck : i.add step = i
          · exact Or.inr (.here inside stuck)
          · rcases direction.turn_cases normal isFinite stuck with ⟨isNormal, covers⟩ | outside
            · have fewer : 2 * (σ * (last.value - (i.add step).value)) < k := by
                push_cast at few
                linarith
              rcases ih isNormal fewer with ⟨values, counts⟩ | sticks
              · exact Or.inl ⟨_, .turn inside counts⟩
              · exact Or.inr (.turn inside sticks)
            · exact Or.inl ⟨_, .turn inside (.ends outside)⟩

/-- Towards a number below 53 bits no step is lost. -/
theorem Direction.moves_on {i : Number} (normal : Normal i) (small : |i.value| ≤ 2 ^ 53)
    (isFinite : last.isFinite = true) (fewer : |last.value| < 2 ^ 53) :
    ¬Sticks step last within i := by
  intro sticks
  have steps {i : Number} (normal : Normal i) (small : |i.value| ≤ 2 ^ 53)
      (inside : within i last = true) :
      Normal (i.add step) ∧ |(i.add step).value| ≤ 2 ^ 53 ∧ (i.add step).value ≠ i.value := by
    have finiteI := Number.isFinite_of_normal normal
    have ahead := (direction.inside finiteI isFinite).mp inside
    have bounds := abs_lt.mp fewer
    apply Number.step_small direction.unit (direction.rounds finiteI) normal small
    rcases direction.unit with rfl | rfl <;> linarith
  induction sticks with
  | here inside stuck => exact (steps normal small inside).2.2 (congrArg Number.value stuck)
  | turn inside _ ih =>
      obtain ⟨isNormal, isSmall, -⟩ := steps normal small inside
      exact ih isNormal isSmall

/-- Towards a number of more bits the loop comes to where a step is lost. -/
theorem Direction.no_end {i : Number} (normal : Normal i) (small : |i.value| ≤ 2 ^ 53)
    (isFinite : last.isFinite = true) (far : 2 ^ 53 ≤ σ * last.value) (values : List Value) :
    ¬Counts step last within i values := by
  intro counts
  induction counts with
  | @ends i outside =>
      have ahead : 0 ≤ σ * (last.value - i.value) := by
        have bounds := abs_le.mp small
        rcases direction.unit with rfl | rfl <;> linarith
      rw [(direction.inside (Number.isFinite_of_normal normal) isFinite).mpr ahead] at outside
      cases outside
  | @turn i values inside rest ih =>
      have finiteI := Number.isFinite_of_normal normal
      rcases lt_or_ge (σ * i.value) (2 ^ 53) with before | most
      · obtain ⟨isNormal, isSmall, -⟩ :=
          Number.step_small direction.unit (direction.rounds finiteI) normal small before
        exact ih isNormal isSmall
      · have lastValue : (Number.finite (σ < 0) (2 ^ 52) 1).value = σ * 2 ^ 53 := by
          rcases direction.unit with rfl | rfl <;> norm_num [Number.value]
        have isEnd : i = .finite (σ < 0) (2 ^ 52) 1 := by
          have bounds := abs_le.mp small
          apply normal.eq_of_value
          · exact ⟨by norm_num, by decide, by decide, Or.inl le_rfl⟩
          · rw [lastValue]
            rcases direction.unit with rfl | rfl <;> linarith
          · rcases direction.unit with rfl | rfl <;> linarith
        apply (Counts.turn inside rest).moves inside
        rw [isEnd]
        exact direction.lost

end Direction

/-! Infinite operands. -/

theorem add_of_infinite {i step : Number} (notNaN : i.isNaN = false) (isInfinite : i.isFinite = false)
    (isFinite : step.isFinite = true) : i.add step = i := by
  cases i with
  | nan => cases notNaN
  | finite => cases isInfinite
  | infinite negative =>
      cases step with
      | finite => rfl
      | _ => cases isFinite

theorem add_isNumber {i step : Number} (isNumber : i.isNaN = false) (isFinite : step.isFinite = true) :
    (i.add step).isNaN = false := by
  cases finiteI : i.isFinite with
  | false =>
      rw [add_of_infinite isNumber finiteI isFinite]
      exact isNumber
  | true => exact (roundsTo_add finiteI isFinite).isNumber

/-- While the condition holds of everything but `nan`, the loop does not end. -/
theorem endless_of_inside {step last : Number} {within : Number → Number → Bool}
    (isFinite : step.isFinite = true) (inside : ∀ i, i.isNaN = false → within i last = true)
    {i : Number} (isNumber : i.isNaN = false) (values : List Value) :
    ¬Counts step last within i values := by
  intro counts
  induction counts with
  | @ends i outside =>
      rw [inside i isNumber] at outside
      cases outside
  | turn _ _ ih => exact ih (add_isNumber isNumber isFinite)

/-! Ranges. -/

/-- The step of a range. -/
def stepOf (first last : Number) : Number := if first.le last then .ofNat 1 else .ofInt (-1)

/-- The condition on which the loop of a range goes on. -/
def withinOf (first last : Number) : Number → Number → Bool :=
  if first.le last then Number.le else fun i last => last.le i

/-- Counting from the first number to the last ends with these values. -/
def CountsTo (first last : Number) (values : List Value) : Prop :=
  Counts (stepOf first last) last (withinOf first last) first values

/-- The loop of a range has no end: an operand is infinite, or the loop comes to a number that is so great
that a step is lost in it. -/
def Endless (first last : Number) : Prop :=
  first.isNaN = false ∧ last.isNaN = false ∧
    (first.isFinite = false ∨ last.isFinite = false ∨
      Sticks (stepOf first last) last (withinOf first last) first)

variable (first last : Number)

theorem range_up_or_down :
    (first.le last = true ∧ Direction 1 (stepOf first last) (withinOf first last)) ∨
      (¬first.le last = true ∧ Direction (-1) (stepOf first last) (withinOf first last)) := by
  rw [stepOf, withinOf]
  split_ifs with up
  · exact Or.inl ⟨up, upward⟩
  · exact Or.inr ⟨up, downward⟩

theorem range_direction : ∃ σ, Direction σ (stepOf first last) (withinOf first last) := by
  rcases range_up_or_down first last with ⟨-, direction⟩ | ⟨-, direction⟩
  · exact ⟨1, direction⟩
  · exact ⟨-1, direction⟩

theorem range?_eq : range? first last =
    countFrom (stepOf first last) last (withinOf first last)
      (turnBound last (first.add (stepOf first last)) + 1) first [] := by
  rw [range?, stepOf, withinOf]
  split <;> rfl

theorem step_finite : (stepOf first last).isFinite = true := by
  obtain ⟨σ, direction⟩ := range_direction first last
  exact direction.isFinite

variable {first last}

theorem inside_first (isFirst : first.isNaN = false) (isLast : last.isNaN = false) :
    withinOf first last first last = true := by
  rw [withinOf]
  split_ifs with up
  · exact up
  · exact (Number.le_or_le isFirst isLast).resolve_left up

theorem outside_of_nan (isNaN : first.isNaN = true ∨ last.isNaN = true) :
    withinOf first last first last = false := by
  have unordered : first.compare? last = none ∧ last.compare? first = none := by
    cases first <;> cases last <;> simp_all [Number.isNaN, Number.compare?]
  rw [withinOf]
  split_ifs <;> simp [Number.le, unordered]

theorem inside_of_infinite (isFinite : first.isFinite = true) (isLast : last.isNaN = false)
    (isInfinite : last.isFinite = false) (i : Number) (isNumber : i.isNaN = false) :
    withinOf first last i last = true := by
  cases last with
  | nan => cases isLast
  | finite => cases isInfinite
  | infinite negative =>
      cases first with
      | finite s m e =>
          cases negative <;> cases i <;>
            simp_all [withinOf, Number.le, Number.compare?, Number.isNaN]
      | _ => cases isFinite

theorem Endless.not_counts (endless : Endless first last) (values : List Value) :
    ¬CountsTo first last values := by
  obtain ⟨isFirst, isLast, infiniteFirst | infiniteLast | sticks⟩ := endless
  · intro counts
    exact counts.moves (inside_first isFirst isLast)
      (add_of_infinite isFirst infiniteFirst (step_finite first last))
  · cases finiteFirst : first.isFinite with
    | false =>
        intro counts
        exact counts.moves (inside_first isFirst isLast)
          (add_of_infinite isFirst finiteFirst (step_finite first last))
    | true =>
        exact endless_of_inside (step_finite first last)
          (inside_of_infinite finiteFirst isLast infiniteLast)
          isFirst values
  · exact sticks.not_counts values

/-- After a turn the number is in normal form, or the loop ends or stays where it is. -/
theorem second_cases (finiteFirst : first.isFinite = true) :
    Normal (first.add (stepOf first last)) ∨
      withinOf first last (first.add (stepOf first last)) last = false ∨
      Sticks (stepOf first last) last (withinOf first last) (first.add (stepOf first last)) := by
  have rounds := roundsTo_add finiteFirst (step_finite first last)
  cases finiteNext : (first.add (stepOf first last)).isFinite with
  | true => exact Or.inl (rounds.normal finiteNext)
  | false =>
      cases inside : withinOf first last (first.add (stepOf first last)) last with
      | false => exact Or.inr (Or.inl rfl)
      | true =>
          exact Or.inr (Or.inr (.here inside (add_of_infinite rounds.isNumber finiteNext
            (step_finite first last))))

theorem finite_of_inside (inside : withinOf first last first last = true)
    (notEndless : ¬Endless first last) : first.isFinite = true ∧ last.isFinite = true ∧
      ¬Sticks (stepOf first last) last (withinOf first last) first := by
  have isFirst : first.isNaN = false := by
    by_contra isNaN
    rw [outside_of_nan (Or.inl (by simpa using isNaN))] at inside
    cases inside
  have isLast : last.isNaN = false := by
    by_contra isNaN
    rw [outside_of_nan (Or.inr (by simpa using isNaN))] at inside
    cases inside
  have others : ¬(first.isFinite = false ∨ last.isFinite = false ∨ _) := fun isEndless =>
    notEndless ⟨isFirst, isLast, isEndless⟩
  simpa only [not_or, Bool.not_eq_false] using others

/-- A range has an end exactly if no operand is infinite and no step is lost. -/
theorem counts_iff : (∃ values, CountsTo first last values) ↔ ¬Endless first last := by
  constructor
  · rintro ⟨values, counts⟩ endless
    exact endless.not_counts values counts
  · intro notEndless
    cases inside : withinOf first last first last with
    | false => exact ⟨[], .ends inside⟩
    | true =>
        obtain ⟨finiteFirst, finiteLast, moves⟩ := finite_of_inside inside notEndless
        rcases second_cases finiteFirst with normal | outside | sticks
        · obtain ⟨σ, direction⟩ := range_direction first last
          rcases direction.counts_or_sticks normal finiteLast with ⟨values, counts⟩ | sticks
          · exact ⟨_, .turn inside counts⟩
          · exact absurd (.turn inside sticks) moves
        · exact ⟨_, .turn inside (.ends outside)⟩
        · exact absurd (.turn inside sticks) moves

/-- From a number below 53 bits a range has no end exactly if the last number is infinite or has more
bits. -/
theorem endless_iff (normal : Normal first) (small : |first.value| < 2 ^ 53) :
    Endless first last ↔ last.isNaN = false ∧ (last.isFinite = true → 2 ^ 53 ≤ |last.value|) := by
  have finiteFirst := Number.isFinite_of_normal normal
  have isFirst : first.isNaN = false := by
    cases first with
    | finite => rfl
    | _ => cases finiteFirst
  obtain ⟨σ, direction⟩ := range_direction first last
  constructor
  · rintro ⟨-, isLast, infiniteFirst | infiniteLast | sticks⟩
    · rw [finiteFirst] at infiniteFirst
      cases infiniteFirst
    · refine ⟨isLast, fun finiteLast => ?_⟩
      rw [finiteLast] at infiniteLast
      cases infiniteLast
    · refine ⟨isLast, fun finiteLast => ?_⟩
      by_contra! fewer
      exact direction.moves_on normal small.le finiteLast fewer sticks
  · rintro ⟨isLast, far⟩
    cases finiteLast : last.isFinite with
    | false => exact ⟨isFirst, isLast, Or.inr (Or.inl finiteLast)⟩
    | true =>
        by_contra notEndless
        obtain ⟨values, counts⟩ := counts_iff.mpr notEndless
        have bounds := abs_lt.mp small
        have order := Number.le_iff_value finiteFirst finiteLast
        have far := le_abs.mp (far finiteLast)
        rcases range_up_or_down first last with ⟨up, direction⟩ | ⟨notUp, direction⟩
        · rw [order] at up
          apply direction.no_end normal small.le finiteLast _ values counts
          rcases far with high | low <;> linarith
        · rw [order, not_le] at notUp
          apply direction.no_end normal small.le finiteLast _ values counts
          rcases far with high | low <;> linarith

/-! Enough turns. -/

theorem turnBound_ge {a b : Number} (finiteA : a.isFinite = true) (finiteB : b.isFinite = true) :
    2 * |a.value - b.value| + 1 ≤ turnBound a b := by
  match a, b with
  | .finite s m e, .finite t n f =>
      have exactA := Number.aligned_value s m (min_le_left e f)
      have exactB := Number.aligned_value t n (min_le_right e f)
      rw [turnBound, ← exactA, ← exactB, ← sub_mul, abs_mul, abs_of_pos (Number.two_zpow_pos _),
        Number.floorInt_eq, Number.value_finite, Number.signed, if_neg Bool.false_ne_true,
        ← Int.cast_sub, Nat.cast_natAbs, Int.cast_abs]
      generalize |((Number.aligned s m e (min e f) - Number.aligned t n f (min e f) : Int) : ℚ)| *
        2 ^ min e f = distance
      have above := Int.lt_floor_add_one distance
      have whole : (⌊distance⌋ : ℚ) ≤ (⌊distance⌋.toNat : Nat) := by
        exact_mod_cast Int.self_le_toNat ⌊distance⌋
      push_cast
      linarith

theorem CountsTo.length_le {values : List Value} (counts : CountsTo first last values) :
    values.length ≤ turnBound last (first.add (stepOf first last)) + 1 := by
  have notEndless := counts_iff.mp ⟨values, counts⟩
  cases counts with
  | ends => exact Nat.zero_le _
  | turn inside rest =>
      obtain ⟨finiteFirst, finiteLast, -⟩ := finite_of_inside inside notEndless
      apply Nat.succ_le_succ
      rcases second_cases finiteFirst with normal | outside | sticks
      · obtain ⟨σ, direction⟩ := range_direction first last
        have few := direction.length_le normal finiteLast rest
        have bound := turnBound_ge finiteLast (Number.isFinite_of_normal normal)
        have way := le_abs_self (last.value - (first.add (stepOf first last)).value)
        have back := neg_abs_le (last.value - (first.add (stepOf first last)).value)
        have most : max 0 (2 * (σ * (last.value - (first.add (stepOf first last)).value)) + 1) ≤
            turnBound last (first.add (stepOf first last)) := by
          apply max_le (Nat.cast_nonneg _)
          rcases direction.unit with rfl | rfl <;> linarith
        exact_mod_cast few.trans most
      · rw [rest.nil_of_outside outside]
        exact Nat.zero_le _
      · exact absurd rest (sticks.not_counts _)

/-- A range has values exactly if its loop ends with them. -/
theorem range?_eq_some_iff {values : List Value} :
    range? first last = some values ↔ CountsTo first last values := by
  rw [range?_eq]
  constructor
  · intro done
    obtain ⟨rest, counts, isValues⟩ := countFrom_counts done
    rw [isValues]
    exact counts
  · intro counts
    exact counts.countFrom_eq counts.length_le []

end TabCompletion.Evaluation
