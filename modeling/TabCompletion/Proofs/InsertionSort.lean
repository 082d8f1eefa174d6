import Mathlib.Data.List.Chain
import Mathlib.Order.Lattice
import TabCompletion.Sorting

/-!
What insertion sort makes of a list. Where the comparison is that of a key in a linear order, the
leading run is ascending as it is taken, the binary search finds the place behind the last key that
is not greater, and each insertion keeps the order.
-/

namespace TabCompletion

variable {α κ : Type} [LinearOrder κ] {less : α → α → Bool} {key : α → κ} {items : List α}

/-- Items are compared as their keys are. -/
def ComparesBy (less : α → α → Bool) (key : α → κ) (items : List α) : Prop :=
  ∀ a ∈ items, ∀ b ∈ items, less a b = true ↔ key a < key b

def Ascending (key : α → κ) (items : List α) : Prop := items.Pairwise fun a b => key a ≤ key b

theorem ComparesBy.of_subset {others : List α} (compares : ComparesBy less key items)
    (subset : ∀ a ∈ others, a ∈ items) : ComparesBy less key others :=
  fun a isA b isB => compares a (subset a isA) b (subset b isB)

/-! The leading run. -/

theorem runLength_chain (descending : Bool) (previous : α) (rest : List α) :
    (previous :: rest.take (runLength less descending previous rest)).IsChain
      fun a b => less b a = descending := by
  induction rest generalizing previous with
  | nil => simp [runLength]
  | cons current rest ih =>
      rw [runLength]
      split
      · rename_i goesOn
        exact List.isChain_cons_cons.mpr ⟨beq_iff_eq.mp goesOn, ih current⟩
      · simp

/-- The run of a list that has two items or more, in ascending order. -/
def leadingRun (less : α → α → Bool) (first second : α) (rest : List α) : List α :=
  let descending := less second first
  let run := first :: second :: rest.take (runLength less descending second rest)
  if descending then run.reverse else run

theorem leadingRun_perm (less : α → α → Bool) (first second : α) (rest : List α) :
    (leadingRun less first second rest).Perm
      (first :: second :: rest.take (runLength less (less second first) second rest)) := by
  rw [leadingRun]
  split
  · exact List.reverse_perm _
  · exact List.Perm.refl _

theorem leadingRun_ascending {first second : α} {rest : List α}
    (compares : ComparesBy less key (first :: second :: rest)) :
    Ascending key (leadingRun less first second rest) := by
  let run := first :: second :: rest.take (runLength less (less second first) second rest)
  have inRun : ∀ a ∈ run, a ∈ first :: second :: rest := by
    intro a listed
    simp only [run, List.mem_cons] at listed ⊢
    exact listed.imp_right (Or.imp_right List.mem_of_mem_take)
  have chain : run.IsChain fun a b => less b a = less second first :=
    List.isChain_cons_cons.mpr ⟨rfl, runLength_chain _ second rest⟩
  have compared := compares.of_subset inRun
  rw [leadingRun]
  cases direction : less second first with
  | true =>
      rw [direction] at chain
      have falling : run.IsChain fun a b => key b < key a :=
        chain.imp_of_mem_imp fun a b isA isB below => (compared b isB a isA).mp below
      have strict := List.isChain_iff_pairwise.mp falling
      rw [if_pos rfl, Ascending, List.pairwise_reverse, ← direction]
      exact strict.imp le_of_lt
  | false =>
      rw [direction] at chain
      have rising : run.IsChain fun a b => key a ≤ key b := by
        apply chain.imp_of_mem_imp
        intro a b isA isB notBelow
        apply le_of_not_gt
        rw [← compared b isB a isA, notBelow]
        exact Bool.false_ne_true
      rw [if_neg Bool.false_ne_true, ← direction]
      exact List.isChain_iff_pairwise.mp rising

/-! The place of an item. -/

/-- Up to the place no item is greater than the pivot, and from there on all are. -/
structure IsPlace (less : α → α → Bool) (pivot : α) (sorted : List α) (place : Nat) :
    Prop where
  within : place ≤ sorted.length
  before : ∀ i x, sorted[i]? = some x → i < place → less pivot x = false
  behind : ∀ i x, sorted[i]? = some x → place ≤ i → less pivot x = true

/-- Whatever comes after an item that is greater than the pivot is greater too. -/
def Parts (less : α → α → Bool) (pivot : α) (sorted : List α) : Prop :=
  ∀ (i j : Nat) (x y : α), sorted[i]? = some x → sorted[j]? = some y → i ≤ j →
    less pivot x = true → less pivot y = true

/-- Halving a range that holds the place ends at the place. -/
theorem searchPlace_isPlace {pivot : α} {sorted : Array α} (parts : Parts less pivot sorted.toList)
    {fuel left right : Nat} (enough : right - left < fuel) (ordered : left ≤ right)
    (within : right ≤ sorted.size)
    (before : ∀ i x, sorted[i]? = some x → i < left → less pivot x = false)
    (behind : ∀ i x, sorted[i]? = some x → right ≤ i → less pivot x = true) :
    IsPlace less pivot sorted.toList (searchPlace less pivot sorted fuel left right) := by
  -- What is left of the range is not greater, what is right of it is, and each half is smaller.
  induction fuel generalizing left right with
  | zero => omega
  | succ fuel ih =>
      rw [searchPlace]
      by_cases isOpen : left < right
      · have inside : left + (right - left) / 2 < sorted.size := by omega
        have isMiddle : sorted.toList[left + (right - left) / 2]? =
            some sorted[left + (right - left) / 2] := by simp
        rw [if_pos isOpen]
        simp only [Array.getElem?_eq_getElem inside]
        cases order : less pivot sorted[left + (right - left) / 2] with
        | true =>
            rw [if_pos rfl]
            apply ih (by omega) (by omega) (by omega) before
            intro i x isX later
            exact parts _ i _ x isMiddle (by simpa using isX) later order
        | false =>
            rw [if_neg Bool.false_ne_true]
            apply ih (by omega) (by omega) within _ behind
            intro i x isX earlier
            by_contra greater
            have after := parts i _ x _ (by simpa using isX) isMiddle (by omega)
              (Bool.of_not_eq_false greater)
            rw [order] at after
            cases after
      · have closed : left = right := by omega
        subst closed
        rw [if_neg isOpen]
        constructor
        · simpa using within
        · simpa using before
        · simpa using behind

theorem searchPlace_found {pivot : α} {sorted : Array α} (parts : Parts less pivot sorted.toList) :
    IsPlace less pivot sorted.toList
      (searchPlace less pivot sorted (sorted.size + 1) 0 sorted.size) := by
  apply searchPlace_isPlace parts (by omega) (Nat.zero_le _) le_rfl
  · intro i x _ impossible
    omega
  · intro i x isX beyond
    rw [Array.getElem?_eq_none beyond] at isX
    cases isX

theorem Ascending.parts {pivot : α} {sorted : List α} (ascending : Ascending key sorted)
    (compares : ComparesBy less key (pivot :: sorted)) : Parts less pivot sorted := by
  intro i j x y isX isY upTo greater
  have memX := List.mem_cons_of_mem pivot (List.mem_of_getElem? isX)
  have memY := List.mem_cons_of_mem pivot (List.mem_of_getElem? isY)
  rw [compares pivot List.mem_cons_self x memX] at greater
  rw [compares pivot List.mem_cons_self y memY]
  rcases Nat.eq_or_lt_of_le upTo with rfl | before
  · rw [isX] at isY
    cases isY
    exact greater
  · obtain ⟨inX, rfl⟩ := List.getElem?_eq_some_iff.mp isX
    obtain ⟨inY, rfl⟩ := List.getElem?_eq_some_iff.mp isY
    exact lt_of_lt_of_le greater (List.pairwise_iff_getElem.mp ascending i j inX inY before)

/-! Insertion. -/

theorem insert_ascending {pivot : α} {sorted : List α} {place : Nat}
    (ascending : Ascending key sorted) (compares : ComparesBy less key (pivot :: sorted))
    (isPlace : IsPlace less pivot sorted place) :
    Ascending key (sorted.take place ++ pivot :: sorted.drop place) := by
  have split : Ascending key (sorted.take place ++ sorted.drop place) := by
    rwa [List.take_append_drop]
  have isBefore : ∀ x ∈ sorted.take place, key x ≤ key pivot := by
    intro x listed
    obtain ⟨i, isX⟩ := List.mem_iff_getElem?.mp listed
    rw [List.getElem?_take] at isX
    split at isX
    · rename_i earlier
      have notGreater := isPlace.before i x isX earlier
      have member := List.mem_cons_of_mem pivot (List.mem_of_mem_take listed)
      apply le_of_not_gt
      rw [← compares pivot List.mem_cons_self x member, notGreater]
      exact Bool.false_ne_true
    · cases isX
  have isBehind : ∀ x ∈ sorted.drop place, key pivot ≤ key x := by
    intro x listed
    obtain ⟨i, isX⟩ := List.mem_iff_getElem?.mp listed
    rw [List.getElem?_drop] at isX
    have greater := isPlace.behind _ x isX (Nat.le_add_right place i)
    have member := List.mem_cons_of_mem pivot (List.mem_of_mem_drop listed)
    exact le_of_lt ((compares pivot List.mem_cons_self x member).mp greater)
  obtain ⟨front, back, across⟩ := List.pairwise_append.mp split
  apply List.pairwise_append.mpr
  constructor
  · exact front
  · constructor
    · exact List.pairwise_cons.mpr ⟨isBehind, back⟩
    · intro x isX y isY
      rcases List.mem_cons.mp isY with rfl | later
      · exact isBefore x isX
      · exact across x isX y later

theorem insert_perm (pivot : α) (sorted : List α) (place : Nat) :
    (sorted.take place ++ pivot :: sorted.drop place).Perm (pivot :: sorted) := by
  have moved : (sorted.take place ++ pivot :: sorted.drop place).Perm
      (pivot :: (sorted.take place ++ sorted.drop place)) := List.perm_middle
  rwa [List.take_append_drop] at moved

theorem insertAll_perm (sorted : Array α) (rest : List α) :
    (insertAll less sorted rest).toList.Perm (sorted.toList ++ rest) := by
  induction rest generalizing sorted with
  | nil => rw [insertAll, List.append_nil]
  | cons pivot rest ih =>
      rw [insertAll]
      apply (ih _).trans
      exact ((insert_perm pivot sorted.toList _).append_right rest).trans List.perm_middle.symm

theorem insertAll_ascending {sorted : Array α} {rest : List α}
    (ascending : Ascending key sorted.toList)
    (compares : ComparesBy less key (sorted.toList ++ rest)) :
    Ascending key (insertAll less sorted rest).toList := by
  induction rest generalizing sorted with
  | nil => exact ascending
  | cons pivot rest ih =>
      have atPivot : ComparesBy less key (pivot :: sorted.toList) :=
        compares.of_subset fun a listed => by
          rcases List.mem_cons.mp listed with rfl | earlier
          · simp
          · exact List.mem_append_left _ earlier
      rw [insertAll]
      apply ih
      · exact insert_ascending ascending atPivot (searchPlace_found (ascending.parts atPivot))
      · apply compares.of_subset
        intro a listed
        rcases List.mem_append.mp listed with inserted | later
        · rcases List.mem_cons.mp ((insert_perm pivot sorted.toList _).mem_iff.mp inserted) with
            rfl | earlier
          · simp
          · exact List.mem_append_left _ earlier
        · exact List.mem_append_right _ (List.mem_cons_of_mem _ later)

/-! The whole sort. -/

theorem insertionSort_eq (first second : α) (rest : List α) :
    insertionSort less (first :: second :: rest) =
      (insertAll less (leadingRun less first second rest).toArray
        (rest.drop (runLength less (less second first) second rest))).toList := rfl

theorem insertionSort_perm (less : α → α → Bool) (items : List α) :
    (insertionSort less items).Perm items := by
  match items with
  | [] | [_] => exact List.Perm.refl _
  | first :: second :: rest =>
      rw [insertionSort_eq]
      apply (insertAll_perm _ _).trans
      have run := (leadingRun_perm less first second rest).append_right
        (rest.drop (runLength less (less second first) second rest))
      rwa [List.cons_append, List.cons_append, List.take_append_drop] at run

theorem insertionSort_ascending (compares : ComparesBy less key items) :
    Ascending key (insertionSort less items) := by
  match items with
  | [] | [_] => simp [insertionSort, Ascending]
  | first :: second :: rest =>
      rw [insertionSort_eq]
      apply insertAll_ascending
      · exact leadingRun_ascending compares
      · apply compares.of_subset
        intro a listed
        rcases List.mem_append.mp listed with inRun | later
        · have kept := (leadingRun_perm less first second rest).mem_iff.mp inRun
          simp only [List.mem_cons] at kept ⊢
          exact kept.imp_right (Or.imp_right List.mem_of_mem_take)
        · exact List.mem_cons_of_mem _ (List.mem_cons_of_mem _ (List.mem_of_mem_drop later))

end TabCompletion
