import TabCompletion.Proofs.Text.CaseClass

/-!
Lower case of a text that stands behind another. Only a capital sigma looks at what precedes it and
at what follows; every other character has the same lower case everywhere, and two places can only
differ in the form of sigma. Dots and brackets stay as they are.
-/

namespace TabCompletion.Text

/-! Points of longer texts. -/

section Points

theorem points_cons {u : CodeUnit} (whole : isHighHalf u = false) (rest : Text) :
    points (u :: rest) = u.toNat :: points rest := by
  cases rest with
  | nil => rfl
  | cons v more => simp [points, whole]

theorem points_concat {u : CodeUnit} (whole : isLowHalf u = false) (t : Text) :
    points (t ++ [u]) = points t ++ [u.toNat] := by
  fun_induction points t with
  | case1 => rfl
  | case2 v => simp [points, whole]
  | case3 v w rest halves ih => simp [points, halves, ih]
  | case4 v w rest apart ih => simp_all [points]

theorem halves_of_ascii {u : CodeUnit} (ascii : u.toNat < 0x80) :
    isHighHalf u = false ∧ isLowHalf u = false := by
  rw [Bool.eq_false_iff, Bool.eq_false_iff, Ne.eq_def, Ne.eq_def, isHighHalf_iff, isLowHalf_iff]
  omega

theorem points_ascii {t : Text} (ascii : isAscii t = true) : points t = t.map (·.toNat) := by
  induction t with
  | nil => rfl
  | cons u rest ih =>
      have here := halves_of_ascii (ascii_below ascii List.mem_cons_self)
      simp only [isAscii, List.all_cons, Bool.and_eq_true] at ascii
      rw [points_cons here.1, ih ascii.2, List.map_cons]

theorem mem_of_points {t : Text} {u : CodeUnit} (listed : u.toNat ∈ points t) : u ∈ t := by
  fun_induction points t with
  | case1 => simp at listed
  | case2 w => simpa [UInt16.toNat_inj] using listed
  | case3 v w rest halves ih =>
      rw [Bool.and_eq_true, isHighHalf_iff, isLowHalf_iff] at halves
      have isUnit := u.toNat_lt
      have pair : pairPoint v w = 0x10000 + (v.toNat - 0xD800) * 0x400 + (w.toNat - 0xDC00) := rfl
      rcases List.mem_cons.mp listed with same | later
      · omega
      · exact List.mem_cons_of_mem _ (List.mem_cons_of_mem _ (ih later))
  | case4 v w rest apart ih =>
      rcases List.mem_cons.mp listed with same | later
      · rw [UInt16.toNat_inj.mp same]
        exact List.mem_cons_self
      · exact List.mem_cons_of_mem _ (ih later)

end Points

/-! Behind another text. -/

section Behind

/-- The code point whose lower case depends on its place. -/
def capitalSigma : CodeUnit := 0x3A3

/-- Lower case of a text behind some code points, nearest first. -/
def lowerAfter (before : List Nat) (t : Text) : Text := ofPoints (lowerPoints before (points t))

/-- Lower case of one ASCII unit. -/
def lowerUnit (u : CodeUnit) : CodeUnit := if 0x41 ≤ u && u ≤ 0x5A then u + 0x20 else u

variable {before : List Nat} {ps : List Nat} {t : Text} {u : CodeUnit}

theorem lowerPoints_plain (plain : 0x3A3 ∉ ps) :
    lowerPoints before ps = ps.flatMap lowerPoint := by
  induction ps generalizing before with
  | nil => rfl
  | cons point rest ih =>
      rw [List.mem_cons, not_or] at plain
      rw [lowerPoints, if_neg (Ne.symm plain.1), ih plain.2, List.flatMap_cons]

theorem ofPoints_append (ps qs : List Nat) : ofPoints (ps ++ qs) = ofPoints ps ++ ofPoints qs :=
  List.flatMap_append

theorem ofPoints_lowerPoint (ascii : u.toNat < 0x80) :
    ofPoints (lowerPoint u.toNat) = [lowerUnit u] := by
  rw [toNat_lowered ascii, ofPoints, List.flatMap_singleton]
  exact unitsOfPoint_toNat _

theorem lower_eq (t : Text) : lower t = lowerAfter [] t := by
  rw [lower, lowerAfter]
  split
  · rename_i ascii
    have plain : 0x3A3 ∉ points t := by
      rw [points_ascii ascii]
      intro listed
      obtain ⟨u, isUnit, same⟩ := List.mem_map.mp listed
      have below := ascii_below ascii isUnit
      omega
    rw [lowerPoints_plain plain, points_ascii ascii, ofPoints, List.flatMap_map,
      List.flatMap_assoc, List.map_eq_flatMap]
    exact List.flatMap_congr fun u isUnit =>
      (ofPoints_lowerPoint (ascii_below ascii isUnit)).symm
  · rfl

/-- Without a capital sigma it does not matter what stands before a text. -/
theorem lowerAfter_plain (plain : capitalSigma ∉ t) : lowerAfter before t = lower t := by
  have absent : 0x3A3 ∉ points t := fun listed => plain (mem_of_points (u := capitalSigma) listed)
  rw [lower_eq, lowerAfter, lowerAfter, lowerPoints_plain absent,
    lowerPoints_plain absent]

theorem not_sigma_of_ascii (ascii : u.toNat < 0x80) : u.toNat ≠ 0x3A3 := by omega

theorem lowerAfter_cons (ascii : u.toNat < 0x80) :
    lowerAfter before (u :: t) = lowerUnit u :: lowerAfter (u.toNat :: before) t := by
  rw [lowerAfter, points_cons (halves_of_ascii ascii).1, lowerPoints,
    if_neg (not_sigma_of_ascii ascii), ofPoints_append, ofPoints_lowerPoint ascii]
  rfl

theorem lowerPoints_concat {q : Nat} (other : q ≠ 0x3A3) :
    ∃ front, lowerPoints before (ps ++ [q]) = front ++ lowerPoint q := by
  induction ps generalizing before with
  | nil => exact ⟨[], by simp [lowerPoints, other]⟩
  | cons point rest ih =>
      obtain ⟨front, split⟩ : ∃ front,
          lowerPoints (point :: before) (rest ++ [q]) = front ++ lowerPoint q := ih
      rw [List.cons_append, lowerPoints, split, ← List.append_assoc]
      exact ⟨_, rfl⟩

theorem getLast?_lowerAfter (ascii : u.toNat < 0x80) :
    (lowerAfter before (t ++ [u])).getLast? = some (lowerUnit u) := by
  obtain ⟨front, split⟩ : ∃ front,
      lowerPoints before (points t ++ [u.toNat]) = front ++ lowerPoint u.toNat :=
    lowerPoints_concat (not_sigma_of_ascii ascii)
  rw [lowerAfter, points_concat (halves_of_ascii ascii).2, split, ofPoints_append,
    ofPoints_lowerPoint ascii]
  simp

theorem meetsCased_concat {q : Nat} (uncased : meetsCased [q] = false) :
    meetsCased (ps ++ [q]) = meetsCased ps := by
  induction ps with
  | nil => exact uncased
  | cons point rest ih => simp [meetsCased, ih]

/-- An ASCII unit without letter case behind a text does not change how the text is lowered. -/
theorem lowerAfter_concat (ascii : u.toNat < 0x80) (uncased : meetsCased [u.toNat] = false) :
    lowerAfter before (t ++ [u]) = lowerAfter before t ++ [lowerUnit u] := by
  have lowered : ∀ before ps, lowerPoints before (ps ++ [u.toNat]) =
      lowerPoints before ps ++ lowerPoint u.toNat := by
    intro before ps
    induction ps generalizing before with
    | nil => simp [lowerPoints, not_sigma_of_ascii ascii]
    | cons point rest ih =>
        rw [List.cons_append, lowerPoints, lowerPoints, ih, meetsCased_concat uncased,
          List.append_assoc]
  rw [lowerAfter, points_concat (halves_of_ascii ascii).2, lowered, ofPoints_append,
    ofPoints_lowerPoint ascii]
  rfl

theorem lowerAfter_colon (t : Text) :
    lowerAfter before (t ++ ":") = lowerAfter before t ++ ":" :=
  lowerAfter_concat (u := ':') (by decide) (by decide +kernel)

/-- What stands before a text only counts by whether the next character that is not skipped has
letter case. -/
theorem lowerPoints_congr {other : List Nat} (same : meetsCased before = meetsCased other)
    (ps : List Nat) :
    lowerPoints before ps = lowerPoints other ps := by
  induction ps generalizing before other with
  | nil => rfl
  | cons point rest ih =>
      have next : meetsCased (point :: before) = meetsCased (point :: other) := by
        rw [meetsCased, meetsCased, same]
      rw [lowerPoints, lowerPoints, same, ih next]

end Behind

/-! Without letter case. -/

section Folding

/-- Sigma at the end of a word is the letter sigma. -/
def unfinal (u : CodeUnit) : CodeUnit := if u = 0x3C2 then 0x3C3 else u

/-- A text without letter case: lower case, whatever form sigma takes. -/
def caseless (t : Text) : Text := (lower t).map unfinal

theorem caseless_lowerPoints (before other ps : List Nat) :
    (ofPoints (lowerPoints before ps)).map unfinal =
      (ofPoints (lowerPoints other ps)).map unfinal := by
  induction ps generalizing before other with
  | nil => rfl
  | cons point rest ih =>
      rw [lowerPoints, lowerPoints, ofPoints_append, ofPoints_append, List.map_append,
        List.map_append, ih (point :: before) (point :: other)]
      congr 1
      by_cases sigma : point = 0x3A3
      · rw [if_pos sigma, if_pos sigma]
        split <;> split <;> rfl
      · rw [if_neg sigma, if_neg sigma]

/-- What stands before a text only decides the form of sigma. -/
theorem caseless_lowerAfter (before : List Nat) (t : Text) :
    (lowerAfter before t).map unfinal = caseless t := by
  rw [caseless, lower_eq]
  exact caseless_lowerPoints before [] (points t)

end Folding

/-! Signs. -/

section Signs

/-- A code point before the small letters that is no capital: lower case neither changes it nor
leads to it. -/
def IsSign (point : Nat) : Prop := point < 0x61 ∧ ¬(0x41 ≤ point ∧ point ≤ 0x5A)

instance (point : Nat) : Decidable (IsSign point) := inferInstanceAs (Decidable (_ ∧ _))

theorem lowerPoint_count {sign : Nat} (isSign : IsSign sign) (point : Nat) :
    (lowerPoint point).count sign = if point = sign then 1 else 0 := by
  have beyond : ∀ r ∈ lowerRuns, 0x60 < Run.low r :=
    List.forall_iff_forall_mem.mp (by decide +kernel)
  obtain ⟨below, isNoCapital⟩ := isSign
  by_cases ascii : point < 0x80
  · rw [lowerPoint, if_pos ascii, List.count_singleton]
    simp only [beq_iff_eq]
    congr 1
    rw [eq_iff_iff]
    split <;> omega
  have other : point ≠ sign := by omega
  rw [if_neg other, List.count_eq_zero]
  rcases lowerPoint_eq (Nat.le_of_not_lt ascii) with expanded | shifted
  · rw [expanded]
    simp only [List.mem_cons, List.not_mem_nil, or_false]
    omega
  · rw [shifted, List.mem_singleton]
    by_cases unmoved : shiftBy lowerRuns point = point
    · omega
    · obtain ⟨r, listed, holds, isImage⟩ := shiftBy_moved unmoved
      have bounds := Run.image_bounds (checked.lowerMoves r listed) holds
      have above := beyond r listed
      omega

theorem lowerPoints_count {sign : Nat} (isSign : IsSign sign) (before ps : List Nat) :
    (lowerPoints before ps).count sign = ps.count sign := by
  induction ps generalizing before with
  | nil => rfl
  | cons point rest ih =>
      rw [lowerPoints, List.count_append, ih, List.count_cons, Nat.add_comm]
      congr 1
      by_cases sigma : point = 0x3A3
      · have small := isSign.1
        rw [if_pos sigma, List.count_singleton, if_neg (by rw [beq_iff_eq]; split <;> omega),
          if_neg (by rw [beq_iff_eq]; omega)]
      · rw [if_neg sigma, lowerPoint_count isSign]
        simp

variable {sign : CodeUnit}

theorem ne_of_half (isSign : IsSign sign.toNat) {u : CodeUnit} (high : 0xD800 ≤ u.toNat) :
    u ≠ sign := by
  rintro rfl
  have small := isSign.1
  omega

theorem points_count (isSign : IsSign sign.toNat) (t : Text) :
    (points t).count sign.toNat = t.count sign := by
  have sameUnit : ∀ u : CodeUnit, (u.toNat == sign.toNat) = (u == sign) := by
    intro u
    rw [Bool.eq_iff_iff, beq_iff_eq, beq_iff_eq, UInt16.toNat_inj]
  fun_induction points t with
  | case1 => rfl
  | case2 u => rw [List.count_singleton, List.count_singleton, sameUnit]
  | case3 u v rest halves ih =>
      rw [Bool.and_eq_true, isHighHalf_iff, isLowHalf_iff] at halves
      have pair : pairPoint u v = 0x10000 + (u.toNat - 0xD800) * 0x400 + (v.toNat - 0xDC00) := rfl
      have small := isSign.1
      rw [List.count_cons_of_ne (by omega), ih,
        List.count_cons_of_ne (ne_of_half isSign halves.1.1),
        List.count_cons_of_ne (ne_of_half isSign (Nat.le_trans (by decide) halves.2.1))]
  | case4 u v rest apart ih => rw [List.count_cons, ih, sameUnit, ← List.count_cons]

theorem unitsOfPoint_count (isSign : IsSign sign.toNat) {point : Nat} (valid : point < 0x110000) :
    (unitsOfPoint point).count sign = if point = sign.toNat then 1 else 0 := by
  rw [unitsOfPoint]
  split
  · rename_i isUnit
    rw [List.count_singleton]
    congr 1
    rw [beq_iff_eq, eq_iff_iff, ← UInt16.toNat_inj, UInt16.toNat_ofNat_of_lt' isUnit]
  · have small := isSign.1
    have high : UInt16.ofNat (0xD800 + (point - 0x10000) / 0x400) ≠ sign :=
      ne_of_half isSign (by rw [UInt16.toNat_ofNat_of_lt' (show _ < 65536 by omega)]; omega)
    have low : UInt16.ofNat (0xDC00 + (point - 0x10000) % 0x400) ≠ sign :=
      ne_of_half isSign (by rw [UInt16.toNat_ofNat_of_lt' (show _ < 65536 by omega)]; omega)
    rw [if_neg (by omega), List.count_cons_of_ne high, List.count_cons_of_ne low, List.count_nil]

theorem ofPoints_count (isSign : IsSign sign.toNat) {ps : List Nat}
    (valid : ∀ p ∈ ps, p < 0x110000) : (ofPoints ps).count sign = ps.count sign.toNat := by
  induction ps with
  | nil => rfl
  | cons point rest ih =>
      have later := ih fun p isRest => valid p (List.mem_cons_of_mem _ isRest)
      have split : ofPoints (point :: rest) = unitsOfPoint point ++ ofPoints rest :=
        List.flatMap_cons
      rw [split, List.count_append, unitsOfPoint_count isSign (valid point List.mem_cons_self),
        later, List.count_cons, Nat.add_comm]
      simp

/-- Lower case keeps the signs. -/
theorem lowerAfter_count (isSign : IsSign sign.toNat) (before : List Nat) (t : Text) :
    (lowerAfter before t).count sign = t.count sign := by
  have valid : ∀ q ∈ lowerPoints before (points t), q < 0x110000 :=
    fun q listed => (lowerPoints_settled listed (points_valid t)).2
  rw [lowerAfter, ofPoints_count isSign valid, lowerPoints_count isSign, points_count isSign]

theorem lower_count (isSign : IsSign sign.toNat) (t : Text) : (lower t).count sign = t.count sign := by
  rw [lower_eq, lowerAfter_count isSign]

end Signs

end TabCompletion.Text
