import Mathlib.Data.List.Chain
import TabCompletion.Text.Case

/-!
Case classes and case mappings. Patterns compare units by their class, the upper case of one unit,
and a text without letter case is one that its upper and lower case agree on. In such a text every
unit is alone in its class. The tables are checked run by run and not point by point.
-/

namespace TabCompletion.Text

/-! Runs. -/

section Runs

abbrev Run := Nat × Nat × Nat × Int

def Run.Holds (r : Run) (point : Nat) : Prop :=
  r.1 ≤ point ∧ point ≤ r.2.1 ∧ (point - r.1) % r.2.2.1 = 0

def Run.image (r : Run) (point : Nat) : Nat := ((point : Int) + r.2.2.2).toNat

/-- The run moves its points, and to places that exist. -/
def Run.moves (r : Run) : Bool := r.2.2.2 != 0 && 0 ≤ (r.1 : Int) + r.2.2.2

variable {runs : List Run} {r q : Run} {point : Nat}

theorem shiftBy_moved (moved : shiftBy runs point ≠ point) :
    ∃ r ∈ runs, r.Holds point ∧ shiftBy runs point = r.image point := by
  induction runs with
  | nil => exact absurd rfl moved
  | cons r rest ih =>
      obtain ⟨first, last, step, shift⟩ := r
      by_cases before : point < first
      · simp [shiftBy, before] at moved
      · by_cases here : point ≤ last ∧ (point - first) % step = 0
        · refine ⟨_, List.mem_cons_self, ⟨Nat.le_of_not_lt before, here⟩, ?_⟩
          rw [shiftBy, if_neg before, if_pos here]
          rfl
        · rw [shiftBy, if_neg before, if_neg here] at moved ⊢
          obtain ⟨r, listed, holds⟩ := ih moved
          exact ⟨r, List.mem_cons_of_mem _ listed, holds⟩

theorem Run.image_eq (moves : r.moves = true) (holds : r.Holds point) :
    (r.image point : Int) = point + r.2.2.2 ∧ r.image point ≠ point := by
  simp only [Run.moves, Bool.and_eq_true, bne_iff_ne, decide_eq_true_eq] at moves
  have above := holds.1
  simp only [Run.image]
  omega

/-- Runs in order move every point that they hold. -/
theorem shiftBy_ne (sorted : runs.Pairwise fun r q => r.1 ≤ q.1)
    (moving : ∀ r ∈ runs, r.moves = true) (listed : r ∈ runs) (holds : r.Holds point) :
    shiftBy runs point ≠ point := by
  induction runs with
  | nil => simp at listed
  | cons first rest ih =>
      have starts : first.1 ≤ point := by
        rcases List.mem_cons.mp listed with rfl | later
        · exact holds.1
        · exact Nat.le_trans ((List.pairwise_cons.mp sorted).1 r later) holds.1
      obtain ⟨low, high, step, shift⟩ := first
      rw [shiftBy, if_neg (Nat.not_lt.mpr starts)]
      by_cases here : point ≤ high ∧ (point - low) % step = 0
      · rw [if_pos here]
        exact (Run.image_eq (moving _ List.mem_cons_self) ⟨starts, here⟩).2
      · rw [if_neg here]
        refine ih (List.pairwise_cons.mp sorted).2
          (fun r isRest => moving r (List.mem_cons_of_mem _ isRest)) ?_
        rcases List.mem_cons.mp listed with rfl | later
        · exact absurd ⟨holds.2.1, holds.2.2⟩ here
        · exact later

/-- The images of one run lie between these two. -/
def Run.low (r : Run) : Nat := r.image r.1

def Run.high (r : Run) : Nat := r.image r.2.1

theorem Run.image_bounds (moves : r.moves = true) (holds : r.Holds point) :
    r.low ≤ r.image point ∧ r.image point ≤ r.high ∧
      r.image point = r.low + (point - r.1) := by
  simp only [Run.moves, Bool.and_eq_true, bne_iff_ne, decide_eq_true_eq] at moves
  have above := holds.1
  have below := holds.2.1
  simp only [Run.low, Run.high, Run.image]
  omega

-- The checks of the tables compare with `Nat.blt`, `Nat.ble` and `Nat.beq`, which the kernel
-- computes at once, and not through instances.

/-- No image of the one run is held by the other: they lie apart, or every second point of each
counts and they have different parity. -/
def Run.apart (r q : Run) : Bool :=
  Nat.blt r.high q.1 || Nat.blt q.2.1 r.low ||
    Nat.beq q.2.2.1 2 && (Nat.beq r.2.2.1 2 || Nat.beq r.1 r.2.1) &&
      Nat.beq ((r.low + q.1) % 2) 1

theorem Run.not_holds_of_apart (moves : r.moves = true) (apart : r.apart q = true)
    (holds : r.Holds point) : ¬q.Holds (r.image point) := by
  intro held
  have bounds := Run.image_bounds moves holds
  simp only [Run.apart, Bool.or_eq_true, Bool.and_eq_true, Nat.blt_eq, Nat.beq_eq] at apart
  obtain ⟨starts, ends, stepped⟩ := held
  obtain ⟨above, below, stepped'⟩ := holds
  rcases apart with (before | behind) | ⟨⟨second, alternate⟩, parity⟩
  · omega
  · omega
  · rw [second] at stepped
    rcases alternate with alternate | single
    · rw [alternate] at stepped'
      omega
    · omega

/-- Every image of the one run is held by the other. -/
def Run.within (r q : Run) : Bool :=
  Nat.ble q.1 r.low && Nat.ble r.high q.2.1 && Nat.beq ((r.low - q.1) % q.2.2.1) 0 &&
    (Nat.beq (r.2.2.1 % q.2.2.1) 0 || Nat.beq r.1 r.2.1)

theorem Run.holds_of_within (moves : r.moves = true) (within : r.within q = true)
    (holds : r.Holds point) : q.Holds (r.image point) := by
  have bounds := Run.image_bounds moves holds
  simp only [Run.within, Bool.or_eq_true, Bool.and_eq_true, Nat.ble_eq, Nat.beq_eq] at within
  obtain ⟨⟨⟨starts, ends⟩, aligned⟩, steps⟩ := within
  obtain ⟨above, below, stepped⟩ := holds
  refine ⟨by omega, by omega, ?_⟩
  have split : r.image point - q.1 = r.low - q.1 + (point - r.1) := by omega
  rw [split, ← Nat.dvd_iff_mod_eq_zero]
  refine Nat.dvd_add (Nat.dvd_of_mod_eq_zero aligned) ?_
  rcases steps with steps | single
  · exact Nat.dvd_trans (Nat.dvd_of_mod_eq_zero steps) (Nat.dvd_of_mod_eq_zero stepped)
  · have same : point - r.1 = 0 := by omega
    rw [same]
    exact Nat.dvd_zero _

end Runs

/-! The tables. -/

section Tables

/-- What is checked of the tables, run by run. -/
structure Checked : Prop where
  lowerMoves : ∀ r ∈ lowerRuns, Run.moves r = true
  upperMoves : ∀ r ∈ upperRuns, Run.moves r = true
  chain : lowerRuns.IsChain fun r q => r.1 ≤ q.1
  apart : ∀ r ∈ lowerRuns, ∀ q ∈ lowerRuns, Run.apart r q = true
  within : ∀ r ∈ upperRuns, ∃ q ∈ lowerRuns, Run.within r q = true
  /-- Halves of pairs and the unit after them have no letter case. -/
  cased : ∀ r ∈ upperRuns ++ lowerRuns, (r.2.1 < 0xD800 || 0xE000 < r.1) = true
  expanded : ∀ e ∈ upperExpansions, ((e.1 < 0xD800 || 0xE000 < e.1) && e.2.length != 1) = true
  unexpanded : ∀ r ∈ upperRuns, ∀ e ∈ upperExpansions,
    (Nat.blt e.1 (Run.low r) || Nat.blt (Run.high r) e.1 ||
      Nat.blt 0 ((e.1 - Run.low r) % r.2.2.1)) = true
  /-- What leaves the units or comes into the ASCII ones by its upper case. -/
  upperBounded : ∀ r ∈ upperRuns, ((0x10000 ≤ r.1 || Run.high r < 0x10000) &&
    (0x80 ≤ Run.low r || r.2.1 < 0x80 || r.1 == r.2.1 && lowerPoint r.1 == [r.1])) = true
  lowerBounded : ∀ r ∈ lowerRuns, (Run.high r < 0x110000 &&
    (0x130 < Run.low r || Run.high r < 0x130 || (0x130 - Run.low r) % r.2.2.1 != 0)) = true
  asciiUpper : ∀ point ∈ List.range 0x80, unitClass point ≠ point →
    upperPoint point = [unitClass point] ∧ lowerPoint (unitClass point) ≠ [unitClass point] ∧
      upperPoint (unitClass point) = [unitClass point] ∧ unitClass point < 0x80
  asciiLower : ∀ point ∈ List.range 0x80, ∀ q ∈ lowerPoint point, lowerPoint q = [q] ∧ q < 0x80
  /-- What a dotted capital and a capital sigma become. -/
  special : ∀ q ∈ [0x69, 0x307, 0x3C2, 0x3C3], lowerPoint q = [q] ∧ q < 0x110000

-- One theorem for all of them: each is a long computation of the kernel.
theorem checked : Checked where
  lowerMoves := List.all_eq_true.mp (by decide +kernel)
  upperMoves := List.all_eq_true.mp (by decide +kernel)
  chain := by decide +kernel
  apart := by
    have all : lowerRuns.all (fun r => lowerRuns.all (Run.apart r)) = true := by decide +kernel
    exact fun r listed => List.all_eq_true.mp (List.all_eq_true.mp all r listed)
  within := by
    have all : upperRuns.all (fun r => lowerRuns.any (Run.within r)) = true := by decide +kernel
    exact fun r listed => List.any_eq_true.mp (List.all_eq_true.mp all r listed)
  cased := List.all_eq_true.mp (by decide +kernel)
  expanded := List.all_eq_true.mp (by decide +kernel)
  unexpanded := by
    have all : upperRuns.all (fun r => upperExpansions.all fun e =>
        Nat.blt e.1 (Run.low r) || Nat.blt (Run.high r) e.1 ||
          Nat.blt 0 ((e.1 - Run.low r) % r.2.2.1)) = true := by
      decide +kernel
    exact fun r listed => List.all_eq_true.mp (List.all_eq_true.mp all r listed)
  upperBounded := List.all_eq_true.mp (by decide +kernel)
  lowerBounded := List.all_eq_true.mp (by decide +kernel)
  asciiUpper := by decide +kernel
  asciiLower := by decide +kernel
  special := by decide +kernel

theorem lowerRuns_sorted : lowerRuns.Pairwise fun r q => r.1 ≤ q.1 := by
  have trans : IsTrans Run fun r q => r.1 ≤ q.1 := ⟨fun _ _ _ => Nat.le_trans⟩
  exact List.isChain_iff_pairwise.mp checked.chain

end Tables

/-! Points. -/

/-- A point that has a lower case of its own. -/
def IsCapital (point : Nat) : Prop := lowerPoint point ≠ [point]

theorem upperPoint_cases {point : Nat} (beyond : 0x80 ≤ point) :
    (∃ points, (point, points) ∈ upperExpansions ∧ upperPoint point = points) ∨
      upperPoint point = [shiftBy upperRuns point] := by
  rw [upperPoint, if_neg (Nat.not_lt.mpr beyond)]
  cases found : upperExpansions.lookup point with
  | none => exact Or.inr rfl
  | some points =>
      obtain ⟨front, back, split, -⟩ := List.lookup_eq_some_iff.mp found
      exact Or.inl ⟨points, by simp [split], rfl⟩

theorem lowerPoint_eq {point : Nat} (beyond : 0x80 ≤ point) :
    lowerPoint point = [0x69, 0x307] ∨ lowerPoint point = [shiftBy lowerRuns point] := by
  rw [lowerPoint, if_neg (Nat.not_lt.mpr beyond)]
  split
  · exact Or.inl rfl
  · exact Or.inr rfl

/-- What an upper-case run gives is a capital. -/
theorem image_isCapital {r : Run} {point : Nat} (listed : r ∈ upperRuns) (holds : r.Holds point)
    (beyond : 0x80 ≤ r.image point) : IsCapital (r.image point) := by
  obtain ⟨q, listed', within⟩ := checked.within r listed
  have moved : shiftBy lowerRuns (r.image point) ≠ r.image point :=
    shiftBy_ne lowerRuns_sorted checked.lowerMoves listed'
      (Run.holds_of_within (checked.upperMoves r listed) within holds)
  intro fixed
  rcases lowerPoint_eq beyond with expanded | shifted
  · rw [fixed] at expanded
    simp at expanded
  · rw [fixed] at shifted
    exact moved (List.cons.inj shifted).1.symm

/-- What is known of a point that is not the representative of its class. -/
structure Represented (point : Nat) : Prop where
  upper : upperPoint point = [unitClass point]
  capital : IsCapital (unitClass point)
  fixed : unitClass (unitClass point) = unitClass point →
    upperPoint (unitClass point) = [unitClass point]
  bounded : point < 0x10000 → unitClass point < 0x10000

theorem unitClass_eq {point image : Nat} (upper : upperPoint point = [image]) :
    unitClass point = if 0x80 ≤ point ∧ image < 0x80 then point else image := by
  rw [unitClass, upper]

theorem unitClass_expanded {point : Nat} {points : List Nat}
    (listed : (point, points) ∈ upperExpansions) (upper : upperPoint point = points) :
    unitClass point = point := by
  have several := (Bool.and_eq_true_iff.mp (checked.expanded _ listed)).2
  rw [unitClass, upper]
  split
  · simp at several
  · rfl

/-- A point that comes into ASCII by its upper case is no capital. -/
theorem not_capital_of_ascii {point : Nat} (beyond : 0x80 ≤ point)
    (into : shiftBy upperRuns point < 0x80) : ¬IsCapital point := by
  have moved : shiftBy upperRuns point ≠ point := by omega
  obtain ⟨r, listed, holds, shifted⟩ := shiftBy_moved moved
  have bounds := Run.image_bounds (checked.upperMoves r listed) holds
  have known := (Bool.and_eq_true_iff.mp (checked.upperBounded r listed)).2
  simp only [Bool.or_eq_true, Bool.and_eq_true, decide_eq_true_eq, beq_iff_eq] at known
  obtain ⟨above, below, -⟩ := holds
  rcases known with (outside | inside) | ⟨single, fixed⟩
  · omega
  · omega
  · have same : point = r.1 := by omega
    rw [IsCapital, same, not_not]
    exact fixed

theorem represented_shifted {point : Nat} (upper : upperPoint point = [shiftBy upperRuns point])
    (moved : shiftBy upperRuns point ≠ point) (outside : 0x80 ≤ shiftBy upperRuns point) :
    Represented point := by
  obtain ⟨r, listed, holds, shifted⟩ := shiftBy_moved moved
  have isClass : unitClass point = shiftBy upperRuns point := by
    rw [unitClass_eq upper, if_neg (by omega)]
  have capital : IsCapital (shiftBy upperRuns point) := by
    rw [shifted] at outside ⊢
    exact image_isCapital listed holds outside
  have bounds := Run.image_bounds (checked.upperMoves r listed) holds
  rw [← shifted] at bounds
  constructor
  · rw [upper, isClass]
  · rw [isClass]
    exact capital
  · rw [isClass]
    intro same
    rcases upperPoint_cases outside with ⟨points, expands, -⟩ | upper'
    · -- An image is no point that is expanded.
      have known := checked.unexpanded r listed _ expands
      simp only [Bool.or_eq_true, Nat.blt_eq] at known
      have stepped := holds.2.2
      have back : shiftBy upperRuns point - r.low = point - r.1 := by omega
      rw [back] at known
      omega
    · rw [unitClass_eq upper'] at same
      split at same
      · rename_i into
        exact absurd capital (not_capital_of_ascii outside into.2)
      · rw [upper', same]
  · intro isUnit
    have known := (Bool.and_eq_true_iff.mp (checked.upperBounded r listed)).1
    simp only [Bool.or_eq_true, decide_eq_true_eq] at known
    have above := holds.1
    omega

theorem represented {point : Nat} (moved : unitClass point ≠ point) : Represented point := by
  by_cases ascii : point < 0x80
  · obtain ⟨upper, capital, fixed, below⟩ :=
      checked.asciiUpper point (List.mem_range.mpr ascii) moved
    exact ⟨upper, capital, fun _ => fixed, fun _ => by omega⟩
  · rcases upperPoint_cases (Nat.le_of_not_lt ascii) with ⟨points, listed, upper⟩ | upper
    · exact absurd (unitClass_expanded listed upper) moved
    · rw [unitClass_eq upper] at moved
      split at moved
      · exact absurd rfl moved
      · exact represented_shifted upper moved (by omega)

/-- A point that represents itself and is no capital is alone in its class. -/
theorem alone_of_caseless {point other : Nat} (caseless : ¬IsCapital point)
    (own : unitClass point = point) (same : unitClass other = unitClass point) : other = point := by
  by_cases moved : unitClass other = other
  · rw [← moved, same, own]
  · have capital := (represented moved).capital
    rw [same, own] at capital
    exact absurd capital caseless

/-- A point that no table moves or expands has no letter case. -/
theorem caseless_of_untouched {point : Nat} (beyond : 0x80 ≤ point) (notDotted : point ≠ 0x130)
    (untouched : ∀ r ∈ upperRuns ++ lowerRuns, ¬Run.Holds r point) :
    ¬IsCapital point ∧ unitClass point = point := by
  have unmoved : ∀ runs, (∀ r ∈ runs, r ∈ upperRuns ++ lowerRuns) →
      shiftBy runs point = point := by
    intro runs listed
    by_contra moved
    obtain ⟨r, isRun, holds, -⟩ := shiftBy_moved moved
    exact untouched r (listed r isRun) holds
  constructor
  · rw [IsCapital, not_not, lowerPoint, if_neg (by omega), if_neg notDotted,
      unmoved lowerRuns fun r listed => List.mem_append_right _ listed]
  · rcases upperPoint_cases beyond with ⟨points, listed, upper⟩ | upper
    · exact unitClass_expanded listed upper
    · rw [unmoved upperRuns fun r listed => List.mem_append_left _ listed] at upper
      rw [unitClass_eq upper]
      split <;> rfl

theorem not_capital_between {point : Nat} (between : 0xD800 ≤ point ∧ point ≤ 0xE000) :
    ¬IsCapital point ∧ unitClass point = point := by
  refine caseless_of_untouched (by omega) (by omega) fun r listed holds => ?_
  obtain ⟨above, below, -⟩ := holds
  have outside := checked.cased r listed
  simp only [Bool.or_eq_true, decide_eq_true_eq] at outside
  omega

/-! Texts. -/

/-- What lower case gives is no capital, and a code point if it comes from one. -/
theorem lowerPoint_settled {point q : Nat} (listed : q ∈ lowerPoint point) :
    ¬IsCapital q ∧ (point < 0x110000 → q < 0x110000) := by
  rw [IsCapital, not_not]
  by_cases ascii : point < 0x80
  · obtain ⟨fixed, below⟩ := checked.asciiLower point (List.mem_range.mpr ascii) q listed
    exact ⟨fixed, fun _ => by omega⟩
  rw [lowerPoint, if_neg ascii] at listed
  by_cases dotted : point = 0x130
  · rw [if_pos dotted] at listed
    obtain ⟨fixed, below⟩ := checked.special q (List.mem_append_left [0x3C2, 0x3C3] listed)
    exact ⟨fixed, fun _ => below⟩
  rw [if_neg dotted, List.mem_singleton] at listed
  by_cases unmoved : shiftBy lowerRuns point = point
  · rw [listed, unmoved, lowerPoint, if_neg ascii, if_neg dotted, unmoved]
    exact ⟨rfl, id⟩
  obtain ⟨r, isRun, holds, shifted⟩ := shiftBy_moved unmoved
  rw [shifted] at listed
  have moves := checked.lowerMoves r isRun
  have bounds := Run.image_bounds moves holds
  rw [← listed] at bounds
  have known := checked.lowerBounded r isRun
  simp only [Bool.or_eq_true, Bool.and_eq_true, decide_eq_true_eq, bne_iff_ne] at known
  have free : ∀ run ∈ lowerRuns, ¬Run.Holds run q := by
    intro run isRun'
    rw [listed]
    exact Run.not_holds_of_apart moves (checked.apart r isRun run isRun') holds
  refine ⟨?_, fun _ => by omega⟩
  -- No run holds `q`, but the ASCII letters and the dotted capital have rules of their own.
  by_cases ascii' : q < 0x80
  · have letters := free (0x41, 0x5A, 1, 32) List.mem_cons_self
    simp only [Run.Holds, Nat.mod_one, and_true] at letters
    rw [lowerPoint, if_pos ascii', if_neg (by omega)]
  · have stays : shiftBy lowerRuns q = q := by
      by_contra moved
      obtain ⟨run, isRun', holds', -⟩ := shiftBy_moved moved
      exact free run isRun' holds'
    have notDotted : q ≠ 0x130 := by
      intro same
      have stepped := holds.2.2
      have back : 0x130 - r.low = point - r.1 := by omega
      rw [back] at known
      omega
    rw [lowerPoint, if_neg ascii', if_neg notDotted, stays]

theorem lowerPoints_settled {before points : List Nat} {q : Nat}
    (listed : q ∈ lowerPoints before points) (valid : ∀ p ∈ points, p < 0x110000) :
    ¬IsCapital q ∧ q < 0x110000 := by
  induction points generalizing before with
  | nil => simp [lowerPoints] at listed
  | cons point rest ih =>
      rw [lowerPoints, List.mem_append] at listed
      rcases listed with here | later
      · split at here
        · have isSigma : q ∈ [0x3C2, 0x3C3] := by
            split at here <;> simp_all
          rw [IsCapital, not_not]
          exact checked.special q (List.mem_append_right [0x69, 0x307] isSigma)
        · have settled := lowerPoint_settled here
          exact ⟨settled.1, settled.2 (valid point List.mem_cons_self)⟩
      · exact ih later fun p isRest => valid p (List.mem_cons_of_mem _ isRest)

theorem isHighHalf_iff (u : CodeUnit) :
    isHighHalf u = true ↔ 0xD800 ≤ u.toNat ∧ u.toNat < 0xDC00 := by
  simp [isHighHalf, UInt16.le_iff_toNat_le, UInt16.lt_iff_toNat_lt]

theorem isLowHalf_iff (u : CodeUnit) :
    isLowHalf u = true ↔ 0xDC00 ≤ u.toNat ∧ u.toNat < 0xE000 := by
  simp [isLowHalf, UInt16.le_iff_toNat_le, UInt16.lt_iff_toNat_lt]

theorem pairPoint_valid {u v : CodeUnit} (high : 0xD800 ≤ u.toNat ∧ u.toNat < 0xDC00)
    (low : 0xDC00 ≤ v.toNat ∧ v.toNat < 0xE000) : pairPoint u v < 0x110000 := by
  have parts : pairPoint u v = 0x10000 + (u.toNat - 0xD800) * 0x400 + (v.toNat - 0xDC00) := rfl
  omega

theorem points_valid (t : Text) : ∀ p ∈ points t, p < 0x110000 := by
  fun_induction points t with
  | case1 => simp
  | case2 u =>
      have isUnit := u.toNat_lt
      simp only [List.mem_singleton, forall_eq]
      omega
  | case3 u v rest halves ih =>
      rw [Bool.and_eq_true, isHighHalf_iff, isLowHalf_iff] at halves
      simp only [List.mem_cons, forall_eq_or_imp]
      exact ⟨pairPoint_valid halves.1 halves.2, ih⟩
  | case4 u v rest apart ih =>
      have isUnit := u.toNat_lt
      simp only [List.mem_cons, forall_eq_or_imp]
      exact ⟨by omega, ih⟩

theorem mem_points {t : Text} {u : CodeUnit} (listed : u ∈ t)
    (whole : ¬(0xD800 ≤ u.toNat ∧ u.toNat ≤ 0xE000)) : u.toNat ∈ points t := by
  fun_induction points t with
  | case1 => simp at listed
  | case2 w =>
      rw [List.mem_singleton.mp listed]
      exact List.mem_singleton.mpr rfl
  | case3 v w rest halves ih =>
      rw [Bool.and_eq_true, isHighHalf_iff, isLowHalf_iff] at halves
      rcases List.mem_cons.mp listed with rfl | later
      · omega
      · rcases List.mem_cons.mp later with rfl | further
        · omega
        · exact List.mem_cons_of_mem _ (ih further)
  | case4 v w rest apart ih =>
      rcases List.mem_cons.mp listed with rfl | later
      · exact List.mem_cons_self
      · exact List.mem_cons_of_mem _ (ih later)

theorem unitsOfPoint_toNat (u : CodeUnit) : unitsOfPoint u.toNat = [u] := by
  rw [unitsOfPoint, if_pos u.toNat_lt, UInt16.ofNat_toNat]

theorem units_settled {q : Nat} {x : CodeUnit} (listed : x ∈ unitsOfPoint q)
    (settled : ¬IsCapital q) (valid : q < 0x110000) : ¬IsCapital x.toNat := by
  rw [unitsOfPoint] at listed
  split at listed
  · rename_i isUnit
    rwa [List.mem_singleton.mp listed, UInt16.toNat_ofNat_of_lt' isUnit]
  · -- The halves of a pair are no capitals.
    have half : 0xD800 ≤ x.toNat ∧ x.toNat ≤ 0xE000 := by
      rcases List.mem_cons.mp listed with rfl | second
      · rw [UInt16.toNat_ofNat_of_lt' (show _ < 65536 by omega)]
        omega
      · rw [List.mem_singleton.mp second, UInt16.toNat_ofNat_of_lt' (show _ < 65536 by omega)]
        omega
    exact (not_capital_between half).1

theorem ascii_below {t : Text} (ascii : isAscii t = true) {u : CodeUnit} (listed : u ∈ t) :
    u.toNat < 0x80 := by
  have found := List.all_eq_true.mp ascii u listed
  simpa [UInt16.lt_iff_toNat_lt] using found

theorem toNat_lowered {u : CodeUnit} (below : u.toNat < 0x80) :
    lowerPoint u.toNat = [(if 0x41 ≤ u && u ≤ 0x5A then u + 0x20 else u).toNat] := by
  have sum := UInt16.toNat_add u 0x20
  rw [lowerPoint, if_pos below]
  simp only [UInt16.le_iff_toNat_le, Bool.and_eq_true, decide_eq_true_eq, UInt16.reduceToNat]
    at sum ⊢
  congr 1
  split <;> omega

theorem toNat_raised {u : CodeUnit} (below : u.toNat < 0x80) :
    upperPoint u.toNat = [(if 0x61 ≤ u && u ≤ 0x7A then u - 0x20 else u).toNat] := by
  have difference := UInt16.toNat_sub u 0x20
  rw [upperPoint, if_pos below]
  simp only [UInt16.le_iff_toNat_le, Bool.and_eq_true, decide_eq_true_eq, UInt16.reduceToNat]
    at difference ⊢
  congr 1
  split <;> omega

theorem lower_settled {t : Text} {x : CodeUnit} (listed : x ∈ lower t) : ¬IsCapital x.toNat := by
  rw [lower] at listed
  split at listed
  · rename_i ascii
    obtain ⟨u, isUnit, rfl⟩ := List.mem_map.mp listed
    have lowered := toNat_lowered (ascii_below ascii isUnit)
    exact (lowerPoint_settled (lowered ▸ List.mem_singleton.mpr rfl)).1
  · rw [ofPoints, List.mem_flatMap] at listed
    obtain ⟨q, isPoint, isUnit⟩ := listed
    have settled := lowerPoints_settled isPoint (points_valid t)
    exact units_settled isUnit settled.1 settled.2

theorem mem_upper {t : Text} {u : CodeUnit} {c : Nat} (listed : u ∈ t)
    (whole : ¬(0xD800 ≤ u.toNat ∧ u.toNat ≤ 0xE000)) (isUpper : upperPoint u.toNat = [c])
    (isUnit : c < 0x10000) : ∃ x ∈ upper t, x.toNat = c := by
  rw [upper]
  split
  · rename_i ascii
    refine ⟨_, List.mem_map_of_mem listed, ?_⟩
    rw [toNat_raised (ascii_below ascii listed)] at isUpper
    exact (List.cons.inj isUpper).1
  · refine ⟨UInt16.ofNat c, ?_, UInt16.toNat_ofNat_of_lt' isUnit⟩
    rw [ofPoints, List.mem_flatMap]
    refine ⟨c, List.mem_flatMap.mpr ⟨u.toNat, mem_points listed whole, ?_⟩, ?_⟩
    · rw [isUpper]
      exact List.mem_singleton.mpr rfl
    · rw [unitsOfPoint, if_pos isUnit]
      exact List.mem_singleton.mpr rfl

/-- In a text without letter case every unit is alone in its class. -/
theorem alone_of_uncased {t : Text} (uncased : upper t = lower t) {u : CodeUnit} (listed : u ∈ t)
    {other : Nat} (same : unitClass other = unitClass u.toNat) : other = u.toNat := by
  by_cases half : 0xD800 ≤ u.toNat ∧ u.toNat ≤ 0xE000
  · have known := not_capital_between half
    exact alone_of_caseless known.1 known.2 same
  -- What upper case gives is in the lower case too, where no capital is.
  have settled : ∀ c, upperPoint u.toNat = [c] → c < 0x10000 → ¬IsCapital c := by
    intro c isUpper isUnit
    obtain ⟨x, isListed, rfl⟩ := mem_upper listed half isUpper isUnit
    rw [uncased] at isListed
    exact lower_settled isListed
  have isUnit : u.toNat < 0x10000 := u.toNat_lt
  by_cases own : unitClass u.toNat = u.toNat
  · by_cases moved : unitClass other = other
    · rw [← moved, same, own]
    · have known := represented moved
      have capital := known.capital
      have fixed := known.fixed
      rw [same, own] at capital fixed
      exact absurd capital (settled _ (fixed own) isUnit)
  · have known := represented own
    exact absurd known.capital (settled _ known.upper (known.bounded isUnit))

end TabCompletion.Text
