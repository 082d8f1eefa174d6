import TabCompletion.Proofs.Text.Lowering

/-!
Texts without letter case. The upper and the lower case of a text agree only if neither mapping
changes any of its code points: read from the left, the first point that one of them changes leaves
different units. So whether a text has letter case is a matter of its code points one by one.
-/

namespace TabCompletion.Text

/-! Points. -/

section Points

variable {q a b : Nat} {us ls : List Nat}

/-- A code point that neither case mapping changes. -/
def Still (point : Nat) : Prop := upperPoint point = [point] ∧ lowerPoint point = [point]

/-- What is checked of the tables beyond `checked`. -/
structure CheckedHeads : Prop where
  upperValid : ∀ r ∈ upperRuns, Run.high r < 0x110000
  lowerWhole : ∀ r ∈ lowerRuns, Run.high r < 0xD800 ∨ 0xE000 ≤ Run.low r
  expanded : ∀ e ∈ upperExpansions,
    e.2 ≠ [] ∧ (ofPoints e.2).head? ≠ (ofPoints (lowerPoint e.1)).head?
  dotted : (ofPoints (upperPoint 0x130)).head? ≠ (ofPoints [0x69, 0x307]).head?
  sigma : upperPoint 0x3A3 = [0x3A3]

theorem checkedHeads : CheckedHeads where
  upperValid := List.forall_iff_forall_mem.mp (by decide +kernel)
  lowerWhole := List.forall_iff_forall_mem.mp (by decide +kernel)
  expanded := List.forall_iff_forall_mem.mp (by decide +kernel)
  dotted := by decide +kernel
  sigma := by decide +kernel

theorem ofPoints_cons (q : Nat) (ps : List Nat) :
    ofPoints (q :: ps) = unitsOfPoint q ++ ofPoints ps := List.flatMap_cons

theorem ofPoints_ne_nil {ps : List Nat} (filled : ps ≠ []) : ofPoints ps ≠ [] := by
  obtain ⟨q, rest, rfl⟩ := List.exists_cons_of_ne_nil filled
  rw [ofPoints_cons, unitsOfPoint]
  split <;> exact List.cons_ne_nil _ _

theorem head?_of_same {ps qs : List Nat} {X Y : Text} (filled : ps ≠ []) (filled' : qs ≠ [])
    (same : ofPoints ps ++ X = ofPoints qs ++ Y) : (ofPoints ps).head? = (ofPoints qs).head? := by
  have heads := congrArg List.head? same
  rwa [List.head?_append_of_ne_nil _ (ofPoints_ne_nil filled),
    List.head?_append_of_ne_nil _ (ofPoints_ne_nil filled')] at heads

/-- The first code point of a text is known from its units, unless it is a half of a pair. -/
theorem point_of_units {X Y : Text} (valid : a < 0x110000) (valid' : b < 0x110000)
    (whole : ¬(0xD800 ≤ a ∧ a < 0xE000)) (whole' : ¬(0xD800 ≤ b ∧ b < 0xE000))
    (same : unitsOfPoint a ++ X = unitsOfPoint b ++ Y) : a = b := by
  have toNat : ∀ {n m : Nat}, n < 65536 → m < 65536 →
      UInt16.ofNat n = UInt16.ofNat m → n = m := by
    intro n m small small' equal
    have values := congrArg UInt16.toNat equal
    rwa [UInt16.toNat_ofNat_of_lt' small, UInt16.toNat_ofNat_of_lt' small'] at values
  rw [unitsOfPoint, unitsOfPoint] at same
  split at same <;> split at same
  · exact toNat (by omega) (by omega) (List.cons.inj same).1
  · have first := toNat (by omega) (by omega) (List.cons.inj same).1
    omega
  · have first := toNat (by omega) (by omega) (List.cons.inj same).1
    omega
  · obtain ⟨first, rest⟩ := List.cons.inj same
    have high := toNat (by omega) (by omega) first
    have low := toNat (by omega) (by omega) (List.cons.inj rest).1
    omega

theorem ofPoints_singleton (q : Nat) : ofPoints [q] = unitsOfPoint q := List.flatMap_singleton _ _

/-- Halves of pairs and the unit after them stay as they are. -/
theorem still_of_half (half : 0xD800 ≤ q ∧ q ≤ 0xE000) : Still q := by
  have unmoved : shiftBy upperRuns q = q := by
    by_contra moved
    obtain ⟨r, listed, ⟨above, below, -⟩, -⟩ := shiftBy_moved moved
    have outside := checked.cased r (List.mem_append_left _ listed)
    simp only [Bool.or_eq_true, decide_eq_true_eq] at outside
    omega
  constructor
  · rcases upperPoint_cases (show 0x80 ≤ q by omega) with ⟨points, listed, -⟩ | upper
    · have outside := checked.expanded _ listed
      simp only [Bool.and_eq_true, Bool.or_eq_true, decide_eq_true_eq] at outside
      omega
    · rw [upper, unmoved]
  · exact not_not.mp (not_capital_between half).1

theorem still_of_ascii (ascii : q < 0x80) {X Y : Text}
    (same : ofPoints (upperPoint q) ++ X = ofPoints (lowerPoint q) ++ Y) : Still q := by
  rw [upperPoint, lowerPoint, if_pos ascii, if_pos ascii, ofPoints_singleton,
    ofPoints_singleton] at same
  have equal := point_of_units (by split <;> omega) (by split <;> omega) (by split <;> omega)
    (by split <;> omega) same
  rw [Still, upperPoint, lowerPoint, if_pos ascii, if_pos ascii]
  split_ifs at equal ⊢ <;> first | exact ⟨rfl, rfl⟩ | omega

/-- Beyond ASCII, what upper case moves it makes a capital, or an ASCII letter that lower case does
not lead back from. -/
theorem upper_moved (beyond : 0x80 ≤ q) (moved : shiftBy upperRuns q ≠ q) :
    IsCapital (shiftBy upperRuns q) ∨ shiftBy upperRuns q < 0x80 ∧ lowerPoint q = [q] := by
  by_cases into : shiftBy upperRuns q < 0x80
  · exact Or.inr ⟨into, not_not.mp (not_capital_of_ascii beyond into)⟩
  · obtain ⟨r, listed, holds, shifted⟩ := shiftBy_moved moved
    rw [shifted] at into ⊢
    exact Or.inl (image_isCapital listed holds (Nat.le_of_not_lt into))

theorem upper_bounds (valid : q < 0x110000) (beyond : 0x80 ≤ q)
    (whole : ¬(0xD800 ≤ q ∧ q ≤ 0xE000)) :
    shiftBy upperRuns q < 0x110000 ∧
      ¬(0xD800 ≤ shiftBy upperRuns q ∧ shiftBy upperRuns q < 0xE000) := by
  by_cases moved : shiftBy upperRuns q = q
  · rw [moved]
    exact ⟨valid, by omega⟩
  constructor
  · obtain ⟨r, listed, holds, shifted⟩ := shiftBy_moved moved
    have bounds := Run.image_bounds (checked.upperMoves r listed) holds
    have below := checkedHeads.upperValid r listed
    omega
  · intro half
    rcases upper_moved beyond moved with capital | ⟨ascii, -⟩
    · exact (not_capital_between ⟨half.1, Nat.le_of_lt half.2⟩).1 capital
    · omega

theorem lower_whole (whole : ¬(0xD800 ≤ q ∧ q ≤ 0xE000)) :
    ¬(0xD800 ≤ shiftBy lowerRuns q ∧ shiftBy lowerRuns q < 0xE000) := by
  by_cases moved : shiftBy lowerRuns q = q
  · omega
  · obtain ⟨r, listed, holds, shifted⟩ := shiftBy_moved moved
    have bounds := Run.image_bounds (checked.lowerMoves r listed) holds
    have outside := checkedHeads.lowerWhole r listed
    omega

/-- A code point whose cases begin with the same units is one that they do not change. -/
theorem still_of_units (valid : q < 0x110000) {X Y : Text}
    (same : ofPoints (upperPoint q) ++ X = ofPoints (lowerPoint q) ++ Y) : Still q := by
  by_cases ascii : q < 0x80
  · exact still_of_ascii ascii same
  by_cases half : 0xD800 ≤ q ∧ q ≤ 0xE000
  · exact still_of_half half
  have beyond := Nat.le_of_not_lt ascii
  have lowered : lowerPoint q ≠ [] := by
    rcases lowerPoint_eq beyond with lower | lower <;> simp [lower]
  rcases upperPoint_cases beyond with ⟨points, listed, upper⟩ | upper
  · have known := checkedHeads.expanded _ listed
    rw [upper] at same
    exact absurd (head?_of_same known.1 lowered same) known.2
  by_cases dotted : q = 0x130
  · subst dotted
    exact absurd (head?_of_same (by simp [upper]) lowered same) checkedHeads.dotted
  have lower : lowerPoint q = [shiftBy lowerRuns q] := by
    rw [lowerPoint, if_neg ascii, if_neg dotted]
  rw [upper, lower, ofPoints_singleton, ofPoints_singleton] at same
  have listed : shiftBy lowerRuns q ∈ lowerPoint q := by
    rw [lower]
    exact List.mem_singleton.mpr rfl
  have settled := lowerPoint_settled listed
  have bounds := upper_bounds valid beyond half
  have equal := point_of_units bounds.1 (settled.2 valid) bounds.2 (lower_whole half) same
  have stays : shiftBy upperRuns q = q := by
    by_contra moved
    rcases upper_moved beyond moved with capital | ⟨-, fixed⟩
    · exact settled.1 (equal ▸ capital)
    · rw [lower, ← equal] at fixed
      exact moved (List.cons.inj fixed).1
  constructor
  · rw [upper, stays]
  · rw [lower, ← equal, stays]

theorem not_still_sigma : ¬Still 0x3A3 := by
  intro still
  have moved : lowerPoint 0x3A3 ≠ [0x3A3] := by decide +kernel
  exact moved still.2

theorem still_of_same {ps : List Nat} (valid : ∀ p ∈ ps, p < 0x110000) {before : List Nat}
    (same : ofPoints (ps.flatMap upperPoint) = ofPoints (lowerPoints before ps)) :
    ∀ p ∈ ps, Still p := by
  -- The induction is on the code points; the first is still and so can be taken off both sides.
  induction ps generalizing before with
  | nil => exact fun _ impossible => nomatch impossible
  | cons q rest ih =>
      rw [List.flatMap_cons, lowerPoints, ofPoints_append, ofPoints_append] at same
      by_cases sigma : q = 0x3A3
      · subst sigma
        rw [if_pos rfl, checkedHeads.sigma] at same
        have heads := head?_of_same (by simp) (by simp) same
        split at heads <;> exact absurd heads (by decide)
      · rw [if_neg sigma] at same
        have still := still_of_units (valid q List.mem_cons_self) same
        rw [still.1, still.2, List.append_cancel_left_eq] at same
        exact List.forall_mem_cons.mpr
          ⟨still, ih (fun p later => valid p (List.mem_cons_of_mem _ later)) same⟩

theorem same_of_still {ps : List Nat} (still : ∀ p ∈ ps, Still p) :
    ps.flatMap upperPoint = ps ∧ ∀ before, lowerPoints before ps = ps := by
  induction ps with
  | nil => exact ⟨rfl, fun _ => rfl⟩
  | cons q rest ih =>
      obtain ⟨here, later⟩ := List.forall_mem_cons.mp still
      obtain ⟨upper, lower⟩ := ih later
      have plain : q ≠ 0x3A3 := by
        rintro rfl
        exact not_still_sigma here
      constructor
      · rw [List.flatMap_cons, here.1, upper]
        rfl
      · intro before
        rw [lowerPoints, if_neg plain, here.2, lower]
        rfl

end Points

/-! Texts. -/

section Texts

theorem upper_eq (t : Text) : upper t = ofPoints ((points t).flatMap upperPoint) := by
  rw [upper]
  split
  · rename_i ascii
    rw [points_ascii ascii, ofPoints, List.flatMap_map, List.flatMap_assoc, List.map_eq_flatMap]
    refine List.flatMap_congr fun u isUnit => ?_
    rw [toNat_raised (ascii_below ascii isUnit), List.flatMap_singleton]
    exact (unitsOfPoint_toNat _).symm
  · rfl

/-- A text has no letter case if none of its code points has. -/
theorem uncased_iff (t : Text) : upper t = lower t ↔ ∀ p ∈ points t, Still p := by
  rw [upper_eq, lower_eq, lowerAfter]
  constructor
  · exact still_of_same (points_valid t)
  · intro still
    obtain ⟨upper, lower⟩ := same_of_still still
    rw [upper, lower]

variable {t rest : Text} {u v : CodeUnit}

/-- The units on both sides of the place are the halves of one code point. -/
def SplitsPair (t rest : Text) : Prop :=
  ∃ u v, t.getLast? = some u ∧ rest.head? = some v ∧ isHighHalf u = true ∧ isLowHalf v = true

theorem SplitsPair.prepend (splits : SplitsPair t rest) (front : Text) :
    SplitsPair (front ++ t) rest := by
  obtain ⟨high, low, isLast, isHead, halves⟩ := splits
  refine ⟨high, low, ?_, isHead, halves⟩
  rw [List.getLast?_append, isLast]
  rfl

theorem points_append (apart : ¬SplitsPair t rest) :
    points (t ++ rest) = points t ++ points rest := by
  fun_induction points t with
  | case1 => rfl
  | case2 u =>
      cases rest with
      | nil => rfl
      | cons v more =>
          have notHalves : ¬(isHighHalf u && isLowHalf v) = true := by
            rw [Bool.and_eq_true]
            exact fun halves => apart ⟨u, v, rfl, rfl, halves⟩
          rw [List.singleton_append, points, if_neg notHalves]
          rfl
  | case3 u v more halves ih =>
      rw [List.cons_append, List.cons_append, points, if_pos halves,
        ih fun splits => apart (splits.prepend [u, v])]
      rfl
  | case4 u v more notHalves ih =>
      rw [List.cons_append, List.cons_append, points, if_neg notHalves, ← List.cons_append,
        ih fun splits => apart (splits.prepend [u])]
      rfl

/-- A unit without letter case that is put between two others and splits no pair does not count. -/
theorem uncased_insert (apart : ¬SplitsPair t rest)
    (whole : isHighHalf u = false ∧ isLowHalf u = false) (still : Still u.toNat) :
    upper (t ++ u :: rest) = lower (t ++ u :: rest) ↔ upper (t ++ rest) = lower (t ++ rest) := by
  have beside : ¬SplitsPair t (u :: rest) := by
    rintro ⟨-, low, -, isHead, -, half⟩
    rw [List.head?_cons, Option.some.injEq] at isHead
    rw [← isHead, whole.2] at half
    cases half
  rw [uncased_iff, uncased_iff, points_append beside, points_append apart, points_cons whole.1,
    List.forall_mem_append, List.forall_mem_append, List.forall_mem_cons]
  simp only [still, true_and]

end Texts

end TabCompletion.Text
