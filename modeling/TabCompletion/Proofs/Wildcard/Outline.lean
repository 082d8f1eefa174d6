import Mathlib.Data.List.Flatten
import TabCompletion.Proofs.Wildcard.SameLetters

/-!
Texts that stand for each other. Lower case keeps the stars and question marks of a text where they
are, and what it makes of any other unit is as long for all units of a case class. So where one of
two texts with the same lower case, read as a pattern with a star behind it, stands for the other,
the two have the same letters.
-/

namespace TabCompletion.Wildcard

open Text (SameLetters)

/-! Lower case. -/

section Outlines

/-- A star or a question mark, and nothing for any other unit. -/
def wildUnit? (u : CodeUnit) : Option CodeUnit := if u = '*' ∨ u = '?' then some u else none

/-- A capital I with a dot, the one unit whose lower case is longer than it. -/
def dottedCapital : CodeUnit := 0x130

/-- What lower case makes of a unit: itself if it is a star or a question mark, otherwise one or two
units that are neither. -/
def outline (u : CodeUnit) : List (Option CodeUnit) :=
  if u = dottedCapital then [none, none] else [wildUnit? u]

theorem wildUnit?_of_large {u : CodeUnit} (large : 0x80 ≤ u.toNat) : wildUnit? u = none := by
  refine if_neg ?_
  rintro (rfl | rfl)
  · exact absurd large (by decide)
  · exact absurd large (by decide)

/-- Lower case leaves no point on the other side of the limit of single units. -/
theorem shiftBy_lower_unit (point : Nat) :
    Text.shiftBy Text.lowerRuns point < 0x10000 ↔ point < 0x10000 := by
  have sides : ∀ r ∈ Text.lowerRuns,
      (Nat.blt r.2.1 0x10000 && Nat.blt (Text.Run.high r) 0x10000 ||
        Nat.ble 0x10000 r.1 && Nat.ble 0x10000 (Text.Run.low r)) = true :=
    List.all_eq_true.mp (by decide +kernel)
  by_cases unmoved : Text.shiftBy Text.lowerRuns point = point
  · rw [unmoved]
  · obtain ⟨r, listed, holds, shifted⟩ := Text.shiftBy_moved unmoved
    have bounds := Text.Run.image_bounds (Text.checked.lowerMoves r listed) holds
    have side := sides r listed
    simp only [Bool.or_eq_true, Bool.and_eq_true, Nat.blt_eq, Nat.ble_eq] at side
    obtain ⟨above, below, -⟩ := holds
    omega

theorem lowerPoint_single {point : Nat} (other : point ≠ 0x130) :
    ∃ q, Text.lowerPoint point = [q] ∧ (q < 0x10000 ↔ point < 0x10000) := by
  by_cases ascii : point < 0x80
  · refine ⟨_, if_pos ascii, ?_⟩
    split <;> omega
  · refine ⟨Text.shiftBy Text.lowerRuns point, ?_, shiftBy_lower_unit point⟩
    rw [Text.lowerPoint, if_neg ascii, if_neg other]

/-- Lower case neither moves a sign nor leads to one. -/
theorem lowerPoint_sign {point q : Nat} (lowered : Text.lowerPoint point = [q]) {sign : Nat}
    (isSign : Text.IsSign sign) : q = sign ↔ point = sign := by
  have count := Text.lowerPoint_count isSign point
  rw [lowered, List.count_singleton] at count
  by_cases same : point = sign
  · rw [if_pos same] at count
    simpa [same] using count
  · rw [if_neg same] at count
    simpa [same] using count

theorem wildUnit?_lowered {u : CodeUnit} {q : Nat} (lowered : Text.lowerPoint u.toNat = [q])
    (isUnit : q < 0x10000) : wildUnit? (UInt16.ofNat q) = wildUnit? u := by
  have same : ∀ sign : CodeUnit, Text.IsSign sign.toNat → (UInt16.ofNat q = sign ↔ u = sign) := by
    intro sign isSign
    rw [← UInt16.toNat_inj, UInt16.toNat_ofNat_of_lt' isUnit, ← UInt16.toNat_inj]
    exact lowerPoint_sign lowered isSign
  have star := same '*' (by decide)
  have question := same '?' (by decide)
  by_cases wild : u = '*' ∨ u = '?'
  · have equal : UInt16.ofNat q = u := by
      rcases wild with rfl | rfl
      · exact star.mpr rfl
      · exact question.mpr rfl
    rw [equal]
  · have tame : ¬(UInt16.ofNat q = '*' ∨ UInt16.ofNat q = '?') := by rwa [star, question]
    rw [wildUnit?, if_neg tame, wildUnit?, if_neg wild]

/-- Lower case of one unit that is not a capital sigma. -/
theorem outline_lowerPoint (u : CodeUnit) :
    (Text.ofPoints (Text.lowerPoint u.toNat)).map wildUnit? = outline u := by
  by_cases dotted : u = dottedCapital
  · rw [dotted]
    decide +kernel
  · have other : u.toNat ≠ 0x130 := fun same => dotted (UInt16.toNat_inj.mp same)
    obtain ⟨q, lowered, side⟩ := lowerPoint_single other
    have isUnit := side.mpr u.toNat_lt
    rw [outline, if_neg dotted, lowered, ← wildUnit?_lowered lowered isUnit, Text.ofPoints,
      List.flatMap_singleton, Text.unitsOfPoint, if_pos isUnit]
    rfl

theorem outline_half {u : CodeUnit} (half : 0xD800 ≤ u.toNat) : outline u = [none] := by
  have other : u ≠ dottedCapital := by
    rintro rfl
    exact absurd half (by decide)
  rw [outline, if_neg other, wildUnit?_of_large (by omega)]

/-- Lower case of a pair is a pair. -/
theorem outline_pair {u v : CodeUnit} (high : 0xD800 ≤ u.toNat ∧ u.toNat < 0xDC00)
    (low : 0xDC00 ≤ v.toNat ∧ v.toNat < 0xE000) :
    (Text.ofPoints (Text.lowerPoint (Text.pairPoint u v))).map wildUnit? = outline u ++ outline v := by
  have beyond : Text.pairPoint u v = 0x10000 + (u.toNat - 0xD800) * 0x400 + (v.toNat - 0xDC00) := rfl
  obtain ⟨q, lowered, side⟩ := lowerPoint_single (show Text.pairPoint u v ≠ 0x130 by omega)
  have valid := (Text.lowerPoint_settled (lowered ▸ List.mem_singleton.mpr rfl)).2
    (Text.pairPoint_valid high low)
  have notUnit : ¬q < 0x10000 := by omega
  rw [outline_half high.1, outline_half (show 0xD800 ≤ v.toNat by omega), lowered, Text.ofPoints,
    List.flatMap_singleton, Text.unitsOfPoint, if_neg notUnit, List.map_cons, List.map_cons,
    wildUnit?_of_large, wildUnit?_of_large]
  · rfl
  · rw [UInt16.toNat_ofNat_of_lt' (show _ < 65536 by omega)]
    omega
  · rw [UInt16.toNat_ofNat_of_lt' (show _ < 65536 by omega)]
    omega

theorem outline_sigma (final : Bool) :
    (Text.ofPoints [if final then 0x3C2 else 0x3C3]).map wildUnit? = outline 0x3A3 := by
  cases final <;> decide +kernel

/-- Lower case of a unit by its place. -/
theorem outline_placed (u : CodeUnit) (final : Bool) :
    (Text.ofPoints (if u.toNat = 0x3A3 then [if final then 0x3C2 else 0x3C3]
      else Text.lowerPoint u.toNat)).map wildUnit? = outline u := by
  by_cases sigma : u.toNat = 0x3A3
  · rw [if_pos sigma, outline_sigma, show u = 0x3A3 from UInt16.toNat_inj.mp sigma]
  · rw [if_neg sigma, outline_lowerPoint]

theorem outline_lowerAfter (before : List Nat) (t : Text) :
    (Text.lowerAfter before t).map wildUnit? = t.flatMap outline := by
  rw [Text.lowerAfter]
  fun_induction Text.points t generalizing before with
  | case1 => rfl
  | case2 u =>
      rw [Text.lowerPoints, Text.lowerPoints, List.append_nil, List.flatMap_singleton]
      exact outline_placed u _
  | case3 u v rest halves ih =>
      rw [Bool.and_eq_true, Text.isHighHalf_iff, Text.isLowHalf_iff] at halves
      have beyond : Text.pairPoint u v =
          0x10000 + (u.toNat - 0xD800) * 0x400 + (v.toNat - 0xDC00) := rfl
      rw [Text.lowerPoints, if_neg (by omega), Text.ofPoints_append, List.map_append, ih,
        outline_pair halves.1 halves.2, List.flatMap_cons, List.flatMap_cons, List.append_assoc]
  | case4 u v rest apart ih =>
      rw [Text.lowerPoints, Text.ofPoints_append, List.map_append, ih, List.flatMap_cons]
      exact congrArg (· ++ _) (outline_placed u _)

/-- Texts with the same lower case have their wildcards in the same places of it. -/
theorem outline_of_lower {s t : Text} (same : Text.lower s = Text.lower t) :
    s.flatMap outline = t.flatMap outline := by
  rw [← outline_lowerAfter [], ← outline_lowerAfter [], ← Text.lower_eq, ← Text.lower_eq, same]

theorem outline_slash (t : Text) : (t.map slash).flatMap outline = t.flatMap outline := by
  rw [List.flatMap_map]
  refine List.flatMap_congr fun u _ => ?_
  by_cases isSlash : u = '/'
  · rw [isSlash]
    rfl
  · rw [slash_of_ne isSlash]

end Outlines

/-! Case classes. -/

section Classes

variable {u w : CodeUnit}

/-- No letter becomes the dotted capital in upper case. -/
theorem alone_dotted (same : Text.unitClass w.toNat = Text.unitClass dottedCapital.toNat) :
    w = dottedCapital := by
  have missed : ∀ r ∈ Text.upperRuns, (Nat.blt 0x130 (Text.Run.low r) ||
      Nat.blt (Text.Run.high r) 0x130 || Nat.blt 0 ((0x130 - Text.Run.low r) % r.2.2.1)) = true :=
    List.all_eq_true.mp (by decide +kernel)
  have own : Text.unitClass dottedCapital.toNat = 0x130 := by decide +kernel
  rw [own] at same
  by_cases itself : Text.unitClass w.toNat = w.toNat
  · exact UInt16.toNat_inj.mp (itself.symm.trans same)
  · have moved := Text.shiftBy_of_moved itself
    rw [same] at moved
    obtain ⟨r, listed, holds, shifted⟩ :=
      Text.shiftBy_moved (show Text.shiftBy Text.upperRuns w.toNat ≠ w.toNat by omega)
    have bounds := Text.Run.image_bounds (Text.checked.upperMoves r listed) holds
    have known := missed r listed
    simp only [Bool.or_eq_true, Nat.blt_eq] at known
    obtain ⟨above, below, stepped⟩ := holds
    have back : 0x130 - Text.Run.low r = w.toNat - r.1 := by omega
    rw [back] at known
    omega

theorem outline_congr (same : Text.unitClass u.toNat = Text.unitClass w.toNat) :
    outline u = outline w := by
  have alone : ∀ x ∈ ([('*' : CodeUnit), '?', dottedCapital] : Text), ∀ v : CodeUnit,
      Text.unitClass v.toNat = Text.unitClass x.toNat → v = x := by
    intro x listed v equal
    simp only [List.mem_cons, List.not_mem_nil, or_false] at listed
    rcases listed with rfl | rfl | rfl
    · exact alone_sign (not_not_intro (by decide)) (by decide) equal
    · exact alone_sign (not_not_intro (by decide)) (by decide) equal
    · exact alone_dotted equal
  have plain : ∀ {v : CodeUnit}, v ∉ ([('*' : CodeUnit), '?', dottedCapital] : Text) →
      outline v = [none] := by
    intro v other
    simp only [List.mem_cons, List.not_mem_nil, or_false, not_or] at other
    rw [outline, if_neg other.2.2, wildUnit?, if_neg (not_or.mpr ⟨other.1, other.2.1⟩)]
  by_cases first : u ∈ ([('*' : CodeUnit), '?', dottedCapital] : Text)
  · rw [alone u first w same.symm]
  by_cases second : w ∈ ([('*' : CodeUnit), '?', dottedCapital] : Text)
  · rw [alone w second u same]
  rw [plain first, plain second]

theorem wild_of_some {x : CodeUnit} (wild : wildUnit? u = some x) : u = '*' ∨ u = '?' := by
  by_contra tame
  rw [wildUnit?, if_neg tame] at wild
  cases wild

theorem unit_of_wild {x : CodeUnit} (wild : wildUnit? u = some x) : u = x := by
  rwa [wildUnit?, if_pos (wild_of_some wild), Option.some.injEq] at wild

theorem outline_wild {x : CodeUnit} (wild : wildUnit? u = some x) : outline u = [some u] := by
  rcases wild_of_some wild with rfl | rfl <;> rfl

theorem outline_tame (tame : wildUnit? u = none) :
    outline u = [none] ∨ outline u = [none, none] := by
  by_cases dotted : u = dottedCapital
  · exact Or.inr (if_pos dotted)
  · exact Or.inl (by rw [outline, if_neg dotted, tame])

theorem tame_congr (same : Text.unitClass u.toNat = Text.unitClass w.toNat)
    (tame : wildUnit? u = none) : wildUnit? w = none := by
  have alike := outline_congr same
  cases wild : wildUnit? w with
  | none => rfl
  | some x =>
      rw [outline_wild wild] at alike
      rcases outline_tame tame with single | double
      · rw [single] at alike
        cases alike
      · rw [double] at alike
        cases alike

end Classes

/-! Letters. -/

section Letters

variable {s t part : Text}

/-- The units of a text that a pattern is not wild for. -/
def letters (t : Text) : Text := t.filter fun u => (wildUnit? u).isNone

theorem letters_tame {u : CodeUnit} (listed : u ∈ letters t) : wildUnit? u = none :=
  Option.isNone_iff_eq_none.mp (List.mem_filter.mp listed).2

theorem letters_cons_tame {u : CodeUnit} (tame : wildUnit? u = none) (rest : Text) :
    letters (u :: rest) = u :: letters rest :=
  List.filter_cons_of_pos (by rw [tame]; rfl)

theorem letters_cons_wild {u x : CodeUnit} (wild : wildUnit? u = some x) (rest : Text) :
    letters (u :: rest) = letters rest :=
  List.filter_cons_of_neg (by rw [wild]; exact Bool.false_ne_true)

def unitSign (u : CodeUnit) : Sign := Mark.sign ⟨u, false⟩

theorem unitSign_tame {u : CodeUnit} (tame : wildUnit? u = none) : unitSign u = .unit u := by
  have notWild : ¬(u = '*' ∨ u = '?') := by
    intro wild
    rw [wildUnit?, if_pos wild] at tame
    cases tame
  rw [not_or] at notWild
  simp only [unitSign, Mark.sign, beq_iff_eq, notWild, if_false, Bool.false_eq_true]

/-- What a text stands for, read as a pattern with a star behind it, has its letters in their
order. -/
theorem letters_of_fits {c : Comparison} (fit : fits c (s.map unitSign ++ [.many]) t = true) :
    ∃ part, c.SameText (letters s) part ∧ part.Sublist t := by
  induction s generalizing t with
  | nil => exact ⟨[], .nil, List.nil_sublist t⟩
  | cons u rest ih =>
      rw [List.map_cons, List.cons_append] at fit
      cases wild : wildUnit? u with
      | none =>
          rw [unitSign_tame wild] at fit
          cases t with
          | nil => simp [fits] at fit
          | cons w later =>
              rw [fits_cons (by simp), Bool.and_eq_true] at fit
              obtain ⟨part, same, listed⟩ := ih fit.2
              rw [letters_cons_tame wild]
              exact ⟨w :: part, .cons fit.1 same, listed.cons_cons w⟩
      | some x =>
          rw [letters_cons_wild wild]
          rcases wild_of_some wild with rfl | rfl
          · obtain ⟨suffix, isSuffix, fit'⟩ := fits_many.mp fit
            obtain ⟨part, same, listed⟩ := ih fit'
            exact ⟨part, same, listed.trans isSuffix.sublist⟩
          · cases t with
            | nil => simp [unitSign, Mark.sign, fits] at fit
            | cons w later =>
                have single : unitSign '?' = .one := rfl
                rw [single, fits_cons (by simp), Bool.and_eq_true] at fit
                obtain ⟨part, same, listed⟩ := ih fit.2
                exact ⟨part, same, listed.cons w⟩

/-- The letters of a text are what its outline leaves blank. -/
theorem outline_letters (t : Text) :
    (letters t).flatMap outline = (t.flatMap outline).filter Option.isNone := by
  induction t with
  | nil => rfl
  | cons u rest ih =>
      rw [List.flatMap_cons, List.filter_append, ← ih]
      cases wild : wildUnit? u with
      | none =>
          rw [letters_cons_tame wild, List.flatMap_cons]
          rcases outline_tame wild with single | double
          · rw [single]
            rfl
          · rw [double]
            rfl
      | some x =>
          rw [letters_cons_wild wild, outline_wild wild]
          rfl

theorem outline_sameLetters (same : SameLetters s t) : s.flatMap outline = t.flatMap outline := by
  induction same with
  | nil => rfl
  | cons first later ih => rw [List.flatMap_cons, List.flatMap_cons, outline_congr first, ih]

/-- Some units of a text that leave as much blank as all of them are all of them. -/
theorem eq_of_sublist_of_outline (listed : part.Sublist t)
    (blank : (part.flatMap outline).length = (t.flatMap outline).length) : part = t := by
  induction listed with
  | slnil => rfl
  | @cons front back u shorter ih =>
      have fewer := (shorter.flatMap outline).length_le
      have filled : 0 < (outline u).length := by
        rw [outline]
        split <;> exact Nat.zero_lt_succ _
      rw [List.flatMap_cons, List.length_append] at blank
      omega
  | cons_cons u shorter ih =>
      rw [List.flatMap_cons, List.flatMap_cons, List.length_append, List.length_append] at blank
      rw [ih (by omega)]

theorem head?_outline (t : Text) : (t.flatMap outline).head? = t.head?.map wildUnit? := by
  cases t with
  | nil => rfl
  | cons u rest =>
      rw [List.flatMap_cons, outline]
      split
      next dotted => rw [dotted]; rfl
      · rfl

/-- Texts with one outline and the same letters between their wildcards have the same letters. -/
theorem sameLetters_of_letters (outlines : s.flatMap outline = t.flatMap outline)
    (same : SameLetters (letters s) (letters t)) : SameLetters s t := by
  induction s generalizing t with
  | nil =>
      have heads := head?_outline t
      rw [← outlines] at heads
      cases t with
      | nil => exact .nil
      | cons w later => cases heads
  | cons u rest ih =>
      have heads := head?_outline t
      rw [← outlines, head?_outline] at heads
      cases t with
      | nil => cases heads
      | cons w later =>
          rw [List.head?_cons, List.head?_cons, Option.map_some, Option.map_some,
            Option.some.injEq] at heads
          rw [List.flatMap_cons, List.flatMap_cons] at outlines
          cases wild : wildUnit? w with
          | none =>
              rw [letters_cons_tame (heads.trans wild), letters_cons_tame wild] at same
              obtain _ | ⟨first, further⟩ := same
              rw [outline_congr first] at outlines
              exact .cons first (ih (List.append_cancel_left outlines) further)
          | some x =>
              rw [letters_cons_wild (heads.trans wild), letters_cons_wild wild] at same
              have isWild := unit_of_wild (heads.trans wild)
              have itself : u = w := isWild.trans (unit_of_wild wild).symm
              rw [itself] at outlines ⊢
              exact .cons rfl (ih (List.append_cancel_left outlines) same)

theorem sameLetters_tame (same : SameLetters s t) (tame : ∀ u ∈ s, wildUnit? u = none) :
    ∀ w ∈ t, wildUnit? w = none := by
  induction same with
  | nil => exact fun w listed => absurd listed List.not_mem_nil
  | cons first later ih =>
      obtain ⟨here, further⟩ := List.forall_mem_cons.mp tame
      exact List.forall_mem_cons.mpr ⟨tame_congr first here, ih further⟩

theorem sublist_letters (same : SameLetters (letters s) part) (listed : part.Sublist t) :
    part.Sublist (letters t) := by
  have tame := sameLetters_tame same fun u isLetter => letters_tame isLetter
  have kept : letters part = part :=
    List.filter_eq_self.mpr fun w isPart => Option.isNone_iff_eq_none.mpr (tame w isPart)
  rw [← kept]
  exact listed.filter _

/-- Of two texts with one outline, the one stands for the other, read as a pattern with a star
behind it, only if they have the same letters. -/
theorem sameLetters_of_fits (outlines : s.flatMap outline = t.flatMap outline)
    (fit : fits (unitwise false) (s.map unitSign ++ [.many]) t = true) : SameLetters s t := by
  -- The letters are found among those of the other text, and there is room for no others.
  obtain ⟨part, same, listed⟩ := letters_of_fits fit
  rw [sameText_iff] at same
  have isPart := sublist_letters same listed
  have blank : (part.flatMap outline).length = ((letters t).flatMap outline).length := by
    rw [← outline_sameLetters same, outline_letters, outline_letters, outlines]
  rw [eq_of_sublist_of_outline isPart blank] at same
  exact sameLetters_of_letters outlines same

/-- Read as a pattern with a star behind it, a text stands for itself. -/
theorem fits_itself (cs : Bool) (t : Text) :
    fits (unitwise cs) (t.map unitSign ++ [.many]) t = true := by
  induction t with
  | nil => exact fits_stars (by simp) (by simp)
  | cons u rest ih =>
      rw [List.map_cons, List.cons_append]
      cases wild : wildUnit? u with
      | none =>
          rw [unitSign_tame wild, fits_cons (by simp), ih, Bool.and_true]
          exact same_self u.toNat
      | some x =>
          rcases wild_of_some wild with rfl | rfl
          · exact fits_many.mpr ⟨rest, List.suffix_cons _ rest, ih⟩
          · have single : unitSign '?' = .one := rfl
            rw [single, fits_cons (by simp), ih]
            rfl

end Letters

end TabCompletion.Wildcard
