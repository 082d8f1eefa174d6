import TabCompletion.Proofs.Evaluation.Counting
import TabCompletion.Proofs.Evaluation.Coverage

/-!
When an evaluation ends. Going down the parts of a node ends with the tree, and a rule ends with the values
that it is given, unless it is to count. So an evaluation has no end exactly if it comes to count between
two values from one of which the other is never reached.
-/

namespace TabCompletion.Evaluation

/-- The evaluation of a node, begun after so many values were made, comes to count from one value to
another: whatever is evaluated before has a value. -/
inductive ComesToCount (scope : Variables) : Node → Nat → Value → Value → Prop
  | here {n : Node} {made after : Nat} {left right : Value} (range : isRange n.form = true)
      (operands : evaluateAll scope (parts n) made = .ok ([left, right], after)) :
      ComesToCount scope n made left right
  | part {n part : Node} {before rest : List Node} {made between : Nat} {values : List Value}
      {left right : Value} (ruled : hasRule n.form = true) (isPart : parts n = before ++ part :: rest)
      (evaluated : evaluateAll scope before made = .ok (values, between))
      (comes : ComesToCount scope part between left right) : ComesToCount scope n made left right

section Evaluations

variable {scope : Variables}

theorem evaluateAll_of_error {before rest : List Node} {n : Node} {made between : Nat}
    {values : List Value} {failure : Failure}
    (evaluated : evaluateAll scope before made = .ok (values, between))
    (failed : evaluate scope n between = .error failure) :
    evaluateAll scope (before ++ n :: rest) made = .error failure := by
  induction before generalizing made values with
  | nil =>
      cases evaluated
      exact bind_of_error failed _
  | cons node later ih =>
      obtain ⟨value, after, first, evaluatedRest⟩ := bind_ok evaluated
      obtain ⟨others, last, evaluatedOthers, isResult⟩ := bind_ok evaluatedRest
      cases isResult
      rw [List.cons_append, evaluateAll, bind_of_ok first, bind_of_error (ih evaluatedOthers)]

theorem hasRule_of_isRange {form : Form} (range : isRange form = true) : hasRule form = true := by
  cases form with
  | binary => rfl
  | _ => cases range

theorem ComesToCount.endless {n : Node} {made : Nat} {left right : Value}
    (comes : ComesToCount scope n made left right)
    (endless : range? left.toNumber right.toNumber = none) :
    evaluate scope n made = .error .endlessRange := by
  induction comes with
  | here range operands =>
      rw [evaluate_step, if_pos (hasRule_of_isRange range), bind_of_ok operands,
        applyRule_range scope range, endless]
      rfl
  | part ruled isPart evaluated _ ih =>
      rw [evaluate_step, if_pos ruled, isPart]
      exact bind_of_error (evaluateAll_of_error evaluated (ih endless)) _

theorem comesToCount_of_endless (n : Node) {made : Nat}
    (failed : evaluate scope n made = .error .endlessRange) :
    ∃ left right, ComesToCount scope n made left right ∧
      range? left.toNumber right.toNumber = none := by
  -- The induction is on the size of the tree: the count is the node's own, or that of a part.
  rw [evaluate_step] at failed
  split at failed
  next ruled =>
    rcases bind_error failed with early | ⟨values, after, evaluated, late⟩
    · obtain ⟨before, part, rest, values, between, isPart, evaluated, failedThere⟩ :=
        evaluateAll_error early
      have smaller : sizeOf part < sizeOf n := sizeOf_part_lt (by simp [isPart])
      obtain ⟨left, right, comes, endless⟩ := comesToCount_of_endless part failedThere
      exact ⟨left, right, .part ruled isPart evaluated comes, endless⟩
    · obtain ⟨-, range, left, right, rfl, endless⟩ :=
        applyRule_foreign scope n ruled (evaluateAll_length evaluated) .endless late
      exact ⟨left, right, .here range evaluated, endless⟩
  next => cases failed
termination_by sizeOf n

end Evaluations

theorem range?_eq_none_iff {first last : Number} : range? first last = none ↔ Endless first last := by
  rw [Option.eq_none_iff_forall_ne_some]
  constructor
  · intro uncounted
    by_contra notEndless
    obtain ⟨values, counts⟩ := counts_iff.mpr notEndless
    exact uncounted values (range?_eq_some_iff.mpr counts)
  · intro endless values counted
    exact endless.not_counts values (range?_eq_some_iff.mp counted)

/-- Every evaluation ends, unless it comes to a range whose loop has no end. That is the case if an operand
is infinite or if the loop comes to a number in which a step is lost; from a number below 53 bits it means
that the last number has more. -/
theorem evaluation_ends_unless_count_is_endless (scope : Variables) (n : Node) (made : Nat) :
    (evaluate scope n made = .error .endlessRange ↔ ∃ left right, ComesToCount scope n made left right ∧
      Endless left.toNumber right.toNumber) ∧
    (∀ first last, Endless first last ↔ ∀ values, ¬CountsTo first last values) ∧
    ∀ first last : Number, first.Normal → |first.value| < 2 ^ 53 →
      (Endless first last ↔ last.isNaN = false ∧ (last.isFinite = true → 2 ^ 53 ≤ |last.value|)) := by
  constructor
  · constructor
    · intro failed
      obtain ⟨left, right, comes, uncounted⟩ := comesToCount_of_endless n failed
      exact ⟨left, right, comes, range?_eq_none_iff.mp uncounted⟩
    · rintro ⟨left, right, comes, endless⟩
      exact comes.endless (range?_eq_none_iff.mpr endless)
  constructor
  · intro first last
    rw [← not_iff_not, ← counts_iff]
    push Not
    rfl
  · intro first last normal small
    exact endless_iff normal small

/-! From one to infinity. -/

def wholeNumber (extent : Extent) (n : Nat) : Node := .new extent (.constant (.number (.ofNat n)))

/-- The expression `1..(1/0)`. -/
def toInfinity : Node :=
  .new ⟨0, 8, "1..(1/0)"⟩ (.binary ".." (wholeNumber ⟨0, 1, "1"⟩ 1)
    (.new ⟨3, 8, "(1/0)"⟩ (.paren (.new ⟨4, 7, "1/0"⟩ (.pipeline
      [.new ⟨4, 7, "1/0"⟩ (.commandExpression (.new ⟨4, 7, "1/0"⟩
        (.binary "/" (wholeNumber ⟨4, 5, "1"⟩ 1) (wholeNumber ⟨6, 7, "0"⟩ 0) ⟨5, 6, "/"⟩)) [])]))))
    ⟨1, 3, ".."⟩)

/-- The expression is safe, and it comes to count to where no count leads. -/
theorem infinity_is_never_reached :
    isSafe toInfinity = true ∧
      ComesToCount none toInfinity 0 (.number (.ofNat 1)) (.number (.infinite false)) ∧
      ∀ values, ¬CountsTo (.ofNat 1) (.infinite false) values := by
  have operands : evaluateAll none (parts toInfinity) 0 =
      .ok ([.number (.ofNat 1), .number (.infinite false)], 0) := rfl
  have endless : Endless (.ofNat 1) (.infinite false) := ⟨by decide, rfl, Or.inr (Or.inl rfl)⟩
  exact ⟨by decide, .here (by decide) operands, endless.not_counts⟩

/-- The count from one to three ends, and the one from one to infinity does not. -/
theorem one_to_three_ends :
    (Number.ofNat 1).Normal ∧ |(Number.ofNat 1).value| < 2 ^ 53 ∧
      (∃ values, CountsTo (.ofNat 1) (.ofNat 3) values) ∧
      evaluate none toInfinity 0 = .error .endlessRange := by
  have one : Number.ofNat 1 = .finite false (2 ^ 52) (-52) := by decide
  have three : Number.ofNat 3 = .finite false (3 * 2 ^ 51) (-51) := by decide
  have normal : (Number.ofNat 1).Normal := one ▸ ⟨by norm_num, by decide, by decide, Or.inl le_rfl⟩
  have small : |(Number.ofNat 1).value| < 2 ^ 53 := by norm_num [one, Number.value]
  obtain ⟨endless, loops, bounds⟩ := evaluation_ends_unless_count_is_endless none toInfinity 0
  have ends : ¬Endless (.ofNat 1) (.ofNat 3) := by
    rw [bounds _ _ normal small]
    rintro ⟨-, far⟩
    norm_num [three, Number.isFinite, Number.value] at far
  refine ⟨normal, small, ?_, endless.mpr ?_⟩
  · rw [loops] at ends
    push Not at ends
    exact ends
  · exact ⟨_, _, .here (by decide) rfl, by decide, rfl, Or.inr (Or.inl rfl)⟩

end TabCompletion.Evaluation
