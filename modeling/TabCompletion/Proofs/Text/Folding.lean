import Mathlib.Data.List.Forall2
import TabCompletion.Proofs.Text.Lowering

/-!
Letters that count as the same. Units of one case class have one simple fold, and the search for
the points that a table moves to an image finds all of them. So what is asked of a unit through its
class or its fold is answered alike for all units of the class.
-/

namespace TabCompletion.Text

/-! Tables. -/

section Tables

variable {runs : List Run} {r : Run} {point : Nat}

/-- The runs that do not end before a point. -/
def runsFrom (low : Nat) (runs : List Run) : List Run :=
  runs.dropWhile fun r => Nat.blt r.1 low && Nat.blt r.2.1 low

theorem shiftBy_runsFrom {low : Nat} (above : low ≤ point) (runs : List Run) :
    shiftBy (runsFrom low runs) point = shiftBy runs point := by
  induction runs with
  | nil => rfl
  | cons r rest ih =>
      rw [runsFrom, List.dropWhile_cons]
      split
      next before =>
        obtain ⟨first, last, step, shift⟩ := r
        rw [Bool.and_eq_true, Nat.blt_eq, Nat.blt_eq] at before
        dsimp only at before
        rw [shiftBy, if_neg (by omega), if_neg (by omega)]
        exact ih
      · rfl

def Run.points (r : Run) : List Nat :=
  (List.range ((r.2.1 - r.1) / r.2.2.1 + 1)).map fun k => r.1 + k * r.2.2.1

theorem Run.mem_points (holds : r.Holds point) : point ∈ r.points := by
  obtain ⟨above, below, stepped⟩ := holds
  refine List.mem_map.mpr ⟨(point - r.1) / r.2.2.1, List.mem_range.mpr ?_, ?_⟩
  · exact Nat.lt_succ_of_le (Nat.div_le_div_right (by omega))
  · have whole := Nat.div_mul_cancel (Nat.dvd_of_mod_eq_zero stepped)
    omega

/-- What is checked of the folds of letters that are written alike in upper case. -/
structure CheckedFolds : Prop where
  foldMoves : ∀ r ∈ foldRuns, Run.moves r = true
  ascii : ∀ point ∈ List.range 0x80, fold (unitClass point) = fold point ∧
    (unitClass point ≠ point → shiftBy upperRuns point = unitClass point)
  shifted : ∀ r ∈ upperRuns, ∀ point ∈ Run.points r,
    (Nat.beq (shiftBy (runsFrom (Run.low r) foldRuns) (Run.image r point))
        (shiftBy (runsFrom r.1 foldRuns) point) ||
      Nat.ble 0x80 point && Nat.blt (Run.image r point) 0x80) = true

theorem checkedFolds : CheckedFolds where
  foldMoves := List.all_eq_true.mp (by decide +kernel)
  ascii := by decide +kernel
  shifted := by
    have all : upperRuns.all (fun r => (Run.points r).all fun point =>
        Nat.beq (shiftBy (runsFrom (Run.low r) foldRuns) (Run.image r point))
            (shiftBy (runsFrom r.1 foldRuns) point) ||
          Nat.ble 0x80 point && Nat.blt (Run.image r point) 0x80) = true := by
      decide +kernel
    exact fun r listed => List.all_eq_true.mp (List.all_eq_true.mp all r listed)

/-- The representative of a class has the fold of the class. -/
theorem fold_unitClass (point : Nat) : fold (unitClass point) = fold point := by
  by_cases ascii : point < 0x80
  · exact (checkedFolds.ascii point (List.mem_range.mpr ascii)).1
  by_cases own : unitClass point = point
  · rw [own]
  have beyond := Nat.le_of_not_lt ascii
  rcases upperPoint_cases beyond with ⟨points, listed, upper⟩ | upper
  · exact absurd (unitClass_expanded listed upper) own
  have isClass := unitClass_eq upper
  split at isClass
  next => exact absurd isClass own
  next outside =>
    rw [isClass] at own ⊢
    obtain ⟨r, listed, holds, shifted⟩ := shiftBy_moved own
    have known := checkedFolds.shifted r listed point (Run.mem_points holds)
    rw [shifted] at outside ⊢
    have bounds := Run.image_bounds (checked.upperMoves r listed) holds
    rw [shiftBy_runsFrom bounds.1, shiftBy_runsFrom holds.1] at known
    simp only [Bool.or_eq_true, Bool.and_eq_true, Nat.beq_eq, Nat.ble_eq, Nat.blt_eq] at known
    exact known.resolve_right outside

/-- A point that does not represent its class is moved to the representative. -/
theorem shiftBy_of_moved (moved : unitClass point ≠ point) :
    shiftBy upperRuns point = unitClass point := by
  by_cases ascii : point < 0x80
  · exact (checkedFolds.ascii point (List.mem_range.mpr ascii)).2 moved
  rcases upperPoint_cases (Nat.le_of_not_lt ascii) with ⟨points, listed, upper⟩ | upper
  · exact absurd (unitClass_expanded listed upper) moved
  · have isClass := (represented moved).upper
    rw [upper] at isClass
    exact (List.cons.inj isClass).1

/-- The search for what a table moves to an image finds all of it. -/
theorem mem_preimages (moves : ∀ r ∈ runs, Run.moves r = true) {image : Nat}
    (shifted : shiftBy runs point = image) : point ∈ preimages runs image := by
  rw [preimages]
  by_cases moved : shiftBy runs point = point
  · rw [← shifted, moved]
    exact List.mem_cons_self
  · obtain ⟨r, listed, holds, isImage⟩ := shiftBy_moved moved
    refine List.mem_cons_of_mem _ (List.mem_filterMap.mpr ⟨r, listed, ?_⟩)
    have exactly := (Run.image_eq (moves r listed) holds).1
    rw [← isImage, shifted] at exactly
    obtain ⟨first, last, step, shift⟩ := r
    have back : ((image : Int) - shift).toNat = point := by
      dsimp only at exactly
      omega
    dsimp only at exactly ⊢
    rw [back, if_pos]
    exact ⟨by omega, holds⟩

end Tables

/-! Texts. -/

section Texts

/-- Two texts of one length whose units are of the same case classes. -/
def SameLetters (s t : Text) : Prop :=
  List.Forall₂ (fun u w : CodeUnit => unitClass u.toNat = unitClass w.toNat) s t

variable {s t : Text} {u w : CodeUnit}

theorem half_eq (same : unitClass u.toNat = unitClass w.toNat)
    (half : isHighHalf u = true ∨ isLowHalf u = true) : w = u := by
  rw [isHighHalf_iff, isLowHalf_iff] at half
  have known := not_capital_between (show 0xD800 ≤ u.toNat ∧ u.toNat ≤ 0xE000 by omega)
  exact UInt16.toNat_inj.mp (alone_of_caseless known.1 known.2 same.symm)

theorem halves_eq (same : unitClass u.toNat = unitClass w.toNat) :
    isHighHalf w = isHighHalf u ∧ isLowHalf w = isLowHalf u := by
  by_cases half : (isHighHalf u = true ∨ isLowHalf u = true) ∨
      (isHighHalf w = true ∨ isLowHalf w = true)
  · have equal : w = u := by
      rcases half with first | second
      · exact half_eq same first
      · exact (half_eq same.symm second).symm
    rw [equal]
    exact ⟨rfl, rfl⟩
  · simp only [not_or, Bool.not_eq_true] at half
    rw [half.1.1, half.1.2, half.2.1, half.2.2]
    exact ⟨rfl, rfl⟩

/-- Code points of texts with the same letters have the same folds. -/
theorem SameLetters.points_fold (same : SameLetters s t) :
    List.Forall₂ (fun p q => fold p = fold q) (points s) (points t) := by
  have foldSame : ∀ {u w : CodeUnit}, unitClass u.toNat = unitClass w.toNat →
      fold u.toNat = fold w.toNat := by
    intro u w equal
    rw [← fold_unitClass, equal, fold_unitClass]
  fun_induction points s generalizing t with
  | case1 =>
      cases same
      exact .nil
  | case2 u =>
      obtain _ | ⟨here, rest⟩ := same
      cases rest
      exact .cons (foldSame here) .nil
  | case3 u v rest halves ih =>
      obtain _ | ⟨first, later⟩ := same
      obtain _ | ⟨second, later⟩ := later
      rw [Bool.and_eq_true] at halves
      rw [half_eq first (Or.inl halves.1), half_eq second (Or.inr halves.2), points,
        if_pos (Bool.and_eq_true_iff.mpr halves)]
      exact .cons rfl (ih later)
  | case4 u v rest apart ih =>
      obtain _ | ⟨first, later⟩ := same
      obtain _ | ⟨second, further⟩ := later
      rw [points, (halves_eq first).1, (halves_eq second).2, if_neg apart]
      exact .cons (foldSame first) (ih (.cons second further))

end Texts

end TabCompletion.Text
