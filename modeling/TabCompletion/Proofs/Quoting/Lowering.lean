import TabCompletion.Proofs.Quoting.Reading
import TabCompletion.Proofs.Text.Lowering

/-!
Letter case of quoted texts. Quotes and the marks in front of them have no letter case, and a
capital sigma looks past them, so lower case goes into the quotes: a quoted text in lower case is
the lower case in quotes. Command names that are written alike up to letter case are alike.
-/

namespace TabCompletion.Quoting

open Text

/-! Marks. -/

section Marks

/-- A unit that lower case neither changes nor leads to, and that is no half of a pair. -/
structure Settled (u : CodeUnit) : Prop where
  high : isHighHalf u = false
  low : isLowHalf u = false
  noSigma : u.toNat ∉ [0x3A3, 0x3C2, 0x3C3]
  kept : lowerPoint u.toNat = [u.toNat]
  alone : ∀ point, u.toNat ∈ lowerPoint point → point = u.toNat

theorem settled_of_sign {u : CodeUnit} (isSign : IsSign u.toNat) : Settled u := by
  have small := isSign.1
  have ascii : u.toNat < 0x80 := by omega
  have halves := halves_of_ascii ascii
  refine ⟨halves.1, halves.2, ?_, ?_, fun point listed => ?_⟩
  · simp only [List.mem_cons, List.not_mem_nil, or_false]
    omega
  · rw [lowerPoint, if_pos ascii, if_neg isSign.2]
  · by_contra differs
    have absent := lowerPoint_count isSign point
    rw [if_neg differs] at absent
    exact List.count_eq_zero.mp absent listed

/-- No letter has a lower case among the typographic quotes. -/
theorem settled_of_typographic {u : CodeUnit} (bounds : 0x2018 ≤ u.toNat ∧ u.toNat ≤ 0x201E)
    (kept : lowerPoint u.toNat = [u.toNat]) : Settled u := by
  have apart : ∀ r ∈ lowerRuns, Run.high r < 0x2018 ∨ 0x201E < Run.low r :=
    List.forall_iff_forall_mem.mp (by decide +kernel)
  refine ⟨?_, ?_, ?_, kept, fun point listed => ?_⟩
  · rw [Bool.eq_false_iff, Ne.eq_def, isHighHalf_iff]
    omega
  · rw [Bool.eq_false_iff, Ne.eq_def, isLowHalf_iff]
    omega
  · simp only [List.mem_cons, List.not_mem_nil, or_false]
    omega
  · by_cases ascii : point < 0x80
    · rw [lowerPoint, if_pos ascii, List.mem_singleton] at listed
      split at listed <;> omega
    · rcases lowerPoint_eq (Nat.le_of_not_lt ascii) with expanded | shifted
      · rw [expanded] at listed
        simp only [List.mem_cons, List.not_mem_nil, or_false] at listed
        omega
      · rw [shifted, List.mem_singleton] at listed
        by_cases unmoved : shiftBy lowerRuns point = point
        · rw [listed, unmoved]
        · obtain ⟨r, isRun, holds, isImage⟩ := shiftBy_moved unmoved
          have image := Run.image_bounds (checked.lowerMoves r isRun) holds
          have beside := apart r isRun
          omega

/-- A way to put marks before some units. A mark is the unit itself once more, or is skipped when a
letter is looked for. -/
structure Marking (mark : CodeUnit → Option CodeUnit) : Prop where
  units : ∀ u m, mark u = some m → Settled u
  marks : ∀ u m, mark u = some m → Settled m
  skipped : ∀ u m, mark u = some m → m = u ∨ Category.holds caseIgnorableRuns m.toNat = true

/-- The text with a mark before every unit that gets one. -/
def putMarks (mark : CodeUnit → Option CodeUnit) (t : Text) : Text :=
  t.flatMap fun u => (mark u).toList ++ [u]

def singleMark (u : CodeUnit) : Option CodeUnit := if isSingleQuote u then some u else none

def doubleMark (u : CodeUnit) : Option CodeUnit :=
  if u == '\x60' || u == '$' || isDoubleQuote u then some '\x60' else none

theorem escapeSingle_eq (t : Text) : escapeSingle t = putMarks singleMark t := by
  refine List.flatMap_congr fun u _ => ?_
  rw [singleMark]
  split <;> rfl

theorem escapeDouble_eq (t : Text) : escapeDouble t = putMarks doubleMark t := by
  refine List.flatMap_congr fun u _ => ?_
  rw [doubleMark]
  split <;> rfl

theorem singleMark_marking : Marking singleMark := by
  have marked : ∀ u m, singleMark u = some m → m = u ∧ Settled u := by
    intro u m found
    rw [singleMark] at found
    split at found
    · rename_i isQuote
      refine ⟨(Option.some.inj found).symm, ?_⟩
      simp only [isSingleQuote, Bool.or_eq_true, beq_iff_eq] at isQuote
      rcases isQuote with (((rfl | rfl) | rfl) | rfl) | rfl
      · exact settled_of_sign (by decide)
      all_goals exact settled_of_typographic (by decide) (by decide +kernel)
    · cases found
  exact ⟨fun u m found => (marked u m found).2,
    fun u m found => (marked u m found).1 ▸ (marked u m found).2,
    fun u m found => Or.inl (marked u m found).1⟩

theorem doubleMark_marking : Marking doubleMark := by
  have marked : ∀ u m, doubleMark u = some m → m = '\x60' ∧ Settled u := by
    intro u m found
    rw [doubleMark] at found
    split at found
    · rename_i isMarked
      refine ⟨(Option.some.inj found).symm, ?_⟩
      simp only [isDoubleQuote, Bool.or_eq_true, beq_iff_eq] at isMarked
      rcases isMarked with (rfl | rfl) | ((rfl | rfl) | rfl) | rfl
      · exact settled_of_sign (by decide)
      · exact settled_of_sign (by decide)
      · exact settled_of_sign (by decide)
      all_goals exact settled_of_typographic (by decide) (by decide +kernel)
    · cases found
  refine ⟨fun u m found => (marked u m found).2, fun u m found => ?_, fun u m found => Or.inr ?_⟩
  · rw [(marked u m found).1]
    exact settled_of_sign (by decide)
  · rw [(marked u m found).1]
    decide +kernel

end Marks

/-! Marks on code points. -/

section Points

variable {mark : CodeUnit → Option CodeUnit}

/-- The mark of a code point; none has one beyond the units. -/
def pointMark (mark : CodeUnit → Option CodeUnit) (point : Nat) : Option Nat :=
  if point < 0x10000 then (mark (UInt16.ofNat point)).map (·.toNat) else none

def putPointMarks (mark : CodeUnit → Option CodeUnit) (ps : List Nat) : List Nat :=
  ps.flatMap fun point => (pointMark mark point).toList ++ [point]

theorem pointMark_toNat (u : CodeUnit) : pointMark mark u.toNat = (mark u).map (·.toNat) := by
  rw [pointMark, if_pos u.toNat_lt, UInt16.ofNat_toNat]

theorem putPointMarks_cons (point : Nat) (ps : List Nat) :
    putPointMarks mark (point :: ps) =
      (pointMark mark point).toList ++ point :: putPointMarks mark ps := by
  rw [putPointMarks, List.flatMap_cons, List.append_assoc]
  rfl

theorem putMarks_cons (u : CodeUnit) (t : Text) :
    putMarks mark (u :: t) = (mark u).toList ++ u :: putMarks mark t := by
  rw [putMarks, List.flatMap_cons, List.append_assoc]
  rfl

theorem putPointMarks_append (ps qs : List Nat) :
    putPointMarks mark (ps ++ qs) = putPointMarks mark ps ++ putPointMarks mark qs :=
  List.flatMap_append

theorem putPointMarks_bare {ps : List Nat} (bare : ∀ p ∈ ps, pointMark mark p = none) :
    putPointMarks mark ps = ps := by
  induction ps with
  | nil => rfl
  | cons point rest ih =>
      rw [putPointMarks_cons, bare point List.mem_cons_self,
        ih fun p isRest => bare p (List.mem_cons_of_mem _ isRest)]
      rfl

/-- A marked code point is one settled unit. -/
theorem Marking.of_point (marking : Marking mark) {point q : Nat}
    (marked : pointMark mark point = some q) :
    ∃ u m : CodeUnit, u.toNat = point ∧ m.toNat = q ∧ Settled u ∧ Settled m ∧
      (m = u ∨ Category.holds caseIgnorableRuns m.toNat = true) := by
  rw [pointMark] at marked
  split at marked
  · rename_i isUnit
    obtain ⟨m, found, isMark⟩ := Option.map_eq_some_iff.mp marked
    exact ⟨_, m, UInt16.toNat_ofNat_of_lt' isUnit, isMark, marking.units _ m found,
      marking.marks _ m found, marking.skipped _ m found⟩
  · cases marked

/-- What a character without a mark becomes has none either. -/
theorem Marking.lowerPoint_bare (marking : Marking mark) {point q : Nat}
    (bare : pointMark mark point = none) (listed : q ∈ lowerPoint point) :
    pointMark mark q = none := by
  cases marked : pointMark mark q with
  | none => rfl
  | some r =>
      obtain ⟨u, m, rfl, -, settled, -⟩ := marking.of_point marked
      rw [settled.alone point listed, marked] at bare
      cases bare

theorem Marking.sigma_bare (marking : Marking mark) {point : Nat}
    (sigma : point ∈ [0x3A3, 0x3C2, 0x3C3]) : pointMark mark point = none := by
  cases marked : pointMark mark point with
  | none => rfl
  | some q =>
      obtain ⟨u, m, rfl, -, settled, -⟩ := marking.of_point marked
      exact absurd sigma settled.noSigma

theorem Marking.half_bare (marking : Marking mark) {u : CodeUnit}
    (isHalf : isHighHalf u = true ∨ isLowHalf u = true) : mark u = none := by
  cases found : mark u with
  | none => rfl
  | some m =>
      have settled := marking.units u m found
      rw [settled.high, settled.low] at isHalf
      simp at isHalf

/-- A unit whose other half does not follow is a code point of its own. -/
theorem points_cons_apart {u : CodeUnit} {t : Text}
    (apart : ∀ v, t.head? = some v → (isHighHalf u && isLowHalf v) = false) :
    points (u :: t) = u.toNat :: points t := by
  cases t with
  | nil => rfl
  | cons v rest => rw [points, if_neg (by rw [apart v rfl]; exact Bool.false_ne_true)]

/-- Marks are no halves of pairs and stand before units that are none, so that pairs stay. -/
theorem Marking.points_putMarks (marking : Marking mark) (t : Text) :
    points (putMarks mark t) = putPointMarks mark (points t) := by
  have behind : ∀ u m : CodeUnit, mark u = some m → ∀ rest : Text,
      points (m :: u :: rest) = m.toNat :: u.toNat :: points rest := fun u m found rest => by
    rw [points_cons (marking.marks u m found).high, points_cons (marking.units u m found).high]
  fun_induction points t with
  | case1 => rfl
  | case2 u =>
      rw [putMarks_cons, putPointMarks_cons, pointMark_toNat]
      cases found : mark u with
      | none => rfl
      | some m => exact behind u m found []
  | case3 u v rest halves ih =>
      have both := Bool.and_eq_true_iff.mp halves
      have beyond : pointMark mark (pairPoint u v) = none :=
        if_neg (Nat.not_lt.mpr (Nat.le_trans (Nat.le_add_right _ _) (Nat.le_add_right _ _)))
      rw [putMarks_cons, putMarks_cons, putPointMarks_cons, beyond,
        marking.half_bare (Or.inl both.1), marking.half_bare (Or.inr both.2)]
      simp only [Option.toList_none, List.nil_append]
      rw [points, if_pos halves, ih]
  | case4 u v rest apart ih =>
      rw [putMarks_cons, putPointMarks_cons, pointMark_toNat]
      cases found : mark u with
      | some m => exact (behind u m found _).trans (by rw [ih]; rfl)
      | none =>
          refine (points_cons_apart fun w first => ?_).trans (by rw [ih]; rfl)
          rw [putMarks_cons] at first
          cases next : mark v with
          | none =>
              rw [next] at first
              cases first
              exact Bool.eq_false_iff.mpr apart
          | some m =>
              rw [next] at first
              cases first
              rw [(marking.marks v w next).low, Bool.and_false]

/-- A letter is looked for past the marks. -/
theorem Marking.meetsCased_mark (marking : Marking mark) {point q : Nat}
    (marked : pointMark mark point = some q) (ps : List Nat) :
    meetsCased (q :: point :: ps) = meetsCased (point :: ps) ∧
      meetsCased (point :: q :: ps) = meetsCased (point :: ps) := by
  obtain ⟨u, m, rfl, rfl, -, -, rfl | skipped⟩ := marking.of_point marked
  · simp only [meetsCased]
    split <;> simp
  · simp only [meetsCased, skipped, if_true]
    exact ⟨trivial, trivial⟩

theorem Marking.meetsCased_putMarks (marking : Marking mark) (ps : List Nat) :
    meetsCased (putPointMarks mark ps) = meetsCased ps := by
  induction ps with
  | nil => rfl
  | cons point rest ih =>
      have bare : meetsCased (point :: putPointMarks mark rest) = meetsCased (point :: rest) := by
        rw [meetsCased, meetsCased, ih]
      rw [putPointMarks_cons]
      cases marked : pointMark mark point with
      | none => exact bare
      | some q => exact (marking.meetsCased_mark marked _).1.trans bare

theorem Marking.lowerPoints_putMarks (marking : Marking mark) (before ps : List Nat) :
    lowerPoints before (putPointMarks mark ps) = putPointMarks mark (lowerPoints before ps) := by
  induction ps generalizing before with
  | nil => rfl
  | cons point rest ih =>
      rw [putPointMarks_cons, lowerPoints, putPointMarks_append]
      cases marked : pointMark mark point with
      | none =>
          have lowered : ∀ q ∈ (if point = 0x3A3 then
              [if meetsCased before && !meetsCased rest then 0x3C2 else 0x3C3]
                else lowerPoint point), pointMark mark q = none := by
            intro q listed
            split at listed
            · refine marking.sigma_bare ?_
              split at listed <;> simp_all
            · exact marking.lowerPoint_bare marked listed
          rw [putPointMarks_bare lowered, Option.toList_none, List.nil_append, lowerPoints, ih,
            marking.meetsCased_putMarks]
      | some q =>
          obtain ⟨u, m, rfl, rfl, settled, markSettled, -⟩ := marking.of_point marked
          have isOther : ∀ w : CodeUnit, Settled w → w.toNat ≠ 0x3A3 := fun w settled sigma =>
            settled.noSigma (by simp [sigma])
          have past := lowerPoints_congr (marking.meetsCased_mark marked before).2 rest
          rw [Option.toList_some, List.singleton_append, lowerPoints,
            if_neg (isOther m markSettled), markSettled.kept, lowerPoints,
            if_neg (isOther u settled), if_neg (isOther u settled), settled.kept, ih, past,
            putPointMarks_cons, marked]
          rfl

theorem Marking.unitsOfPoint_putMarks (marking : Marking mark) {point : Nat}
    (valid : point < 0x110000) :
    putMarks mark (unitsOfPoint point) =
      ofPoints (pointMark mark point).toList ++ unitsOfPoint point := by
  rw [unitsOfPoint, pointMark]
  split
  · rw [putMarks_cons]
    cases mark (UInt16.ofNat point) with
    | none => rfl
    | some m => simp [ofPoints, unitsOfPoint_toNat, putMarks]
  · have high : isHighHalf (UInt16.ofNat (0xD800 + (point - 0x10000) / 0x400)) = true := by
      rw [isHighHalf_iff, UInt16.toNat_ofNat_of_lt' (show _ < 65536 by omega)]
      omega
    have low : isLowHalf (UInt16.ofNat (0xDC00 + (point - 0x10000) % 0x400)) = true := by
      rw [isLowHalf_iff, UInt16.toNat_ofNat_of_lt' (show _ < 65536 by omega)]
      omega
    rw [putMarks_cons, putMarks_cons, marking.half_bare (Or.inl high),
      marking.half_bare (Or.inr low)]
    rfl

theorem Marking.ofPoints_putMarks (marking : Marking mark) {qs : List Nat}
    (valid : ∀ q ∈ qs, q < 0x110000) :
    ofPoints (putPointMarks mark qs) = putMarks mark (ofPoints qs) := by
  induction qs with
  | nil => rfl
  | cons point rest ih =>
      have split : ∀ ps, ofPoints (point :: ps) = unitsOfPoint point ++ ofPoints ps :=
        fun ps => List.flatMap_cons
      have apart : ∀ s t, putMarks mark (s ++ t) = putMarks mark s ++ putMarks mark t :=
        fun s t => List.flatMap_append
      rw [putPointMarks_cons, ofPoints_append, split, split,
        ih fun q isRest => valid q (List.mem_cons_of_mem _ isRest), apart,
        marking.unitsOfPoint_putMarks (valid point List.mem_cons_self), List.append_assoc]

/-- Lower case goes past the marks. -/
theorem Marking.lower_putMarks (marking : Marking mark) (t : Text) :
    lower (putMarks mark t) = putMarks mark (lower t) := by
  have valid : ∀ q ∈ lowerPoints [] (points t), q < 0x110000 :=
    fun q listed => (lowerPoints_settled listed (points_valid t)).2
  rw [lower_eq, lower_eq, lowerAfter, marking.points_putMarks, marking.lowerPoints_putMarks,
    marking.ofPoints_putMarks valid]
  rfl

end Points

/-! Quoted texts and command names. -/

section Written

/-- Behind units without letter case a text is lowered as if it stood alone. -/
theorem lowerAfter_uncased {before : List Nat} (uncased : meetsCased before = false) (t : Text) :
    lowerAfter before t = lower t := by
  have alone : meetsCased before = meetsCased [] := uncased
  rw [lower_eq, lowerAfter, lowerAfter, lowerPoints_congr alone]

theorem lower_between {u : CodeUnit} (ascii : u.toNat < 0x80) (uncased : meetsCased [u.toNat] = false)
    (t : Text) : lower (u :: (t ++ [u])) = lowerUnit u :: (lower t ++ [lowerUnit u]) := by
  rw [lower_eq, lowerAfter_cons ascii, lowerAfter_concat ascii uncased, lowerAfter_uncased uncased]

/-- A quoted text in lower case is the lower case of the text in quotes. -/
theorem lower_wrap (q : Quote) (t : Text) : lower (q.wrap t) = q.wrap (lower t) := by
  cases q with
  | none => rfl
  | single =>
      have inside : lower (escapeSingle t) = escapeSingle (lower t) := by
        rw [escapeSingle_eq, singleMark_marking.lower_putMarks, escapeSingle_eq]
      refine (lower_between (u := '\x27') (by decide) (by decide +kernel) (escapeSingle t)).trans ?_
      rw [inside]
      rfl
  | double =>
      have inside : lower (escapeDouble t) = escapeDouble (lower t) := by
        rw [escapeDouble_eq, doubleMark_marking.lower_putMarks, escapeDouble_eq]
      refine (lower_between (u := '"') (by decide) (by decide +kernel) (escapeDouble t)).trans ?_
      rw [inside]
      rfl

theorem wrap_injective {q : Quote} {s t : Text} (same : q.wrap s = q.wrap t) : s = t := by
  cases quoted : q with
  | none => rwa [quoted] at same
  | single | double =>
      all_goals
        have first := read?_wrap (q := q) (by rw [quoted]; nofun) s
        rw [same, read?_wrap (by rw [quoted]; nofun) t] at first
        exact (congrArg Reading.content (Option.some.inj first)).symm

theorem lower_lead (t : Text) : lower ("& " ++ t) = "& " ++ lower t := by
  have ascii : ∀ u ∈ Text.ofString "& ", u.toNat < 0x80 :=
    List.forall_iff_forall_mem.mp (by decide)
  have led : lower ("& " ++ t) = lowerAfter [] ('&' :: ' ' :: t) := lower_eq _
  rw [led, lowerAfter_cons (ascii _ (by decide)), lowerAfter_cons (ascii _ (by decide)),
    lowerAfter_uncased (by decide +kernel)]
  rfl

/-- Lower case neither makes nor removes a sign. -/
theorem mem_lower_iff {sign : CodeUnit} (isSign : IsSign sign.toNat) (t : Text) :
    sign ∈ lower t ↔ sign ∈ t := by
  rw [← List.count_pos_iff, ← List.count_pos_iff, lower_count isSign]

open Completion

variable {a b : Text}

/-- A bare name has neither quote nor ampersand, so that it shows whether it was given one. -/
theorem lower_bare_injective {before behind : Text} (bareA : needed a = false)
    (bareB : needed b = false) (ledA : before = [] ∨ before = "& ")
    (ledB : behind = [] ∨ behind = "& ") (same : lower (before ++ a) = lower (behind ++ b)) :
    lower a = lower b := by
  have isSign : IsSign ('&' : CodeUnit).toNat := by decide
  have absent : ∀ t : Text, needed t = false → ('&' : CodeUnit) ∉ t := fun t bare listed =>
    ((isBare_of_not_needed bare).2 _ listed).2.2.2 (by decide)
  have found : ('&' : CodeUnit) ∈ before ++ a ↔ ('&' : CodeUnit) ∈ behind ++ b := by
    rw [← mem_lower_iff isSign, same, mem_lower_iff isSign]
  have listed : ('&' : CodeUnit) ∈ Text.ofString "& " := by decide
  rcases ledA with rfl | rfl <;> rcases ledB with rfl | rfl
  · exact same
  · exact absurd (found.mpr (List.mem_append_left _ listed)) (absent a bareA)
  · exact absurd (found.mp (List.mem_append_left _ listed)) (absent b bareB)
  · rw [lower_lead, lower_lead] at same
    exact List.append_cancel_left same

theorem formatCommandName_needed {name : Text} (isNeeded : needed name = true) (addAmpersand : Bool) :
    formatCommandName name .none addAmpersand =
      (if addAmpersand then Text.ofString "& " else []) ++ Quote.single.wrap name := by
  cases addAmpersand <;> simp [formatCommandName, isNeeded]

theorem formatCommandName_bare {name : Text} (bare : needed name = false) (addAmpersand : Bool) :
    ∃ lead : Text, (lead = [] ∨ lead = "& ") ∧
      formatCommandName name .none addAmpersand = lead ++ name := by
  obtain ⟨lead, split, added⟩ := formatCommandName_eq name .none addAmpersand
  refine ⟨lead, added.imp_right fun added => added.2.2, split.trans ?_⟩
  rw [quoteValue, bare, if_neg Bool.false_ne_true]

theorem quote_mem_formatted (name : Text) (addAmpersand : Bool) :
    ('\x27' : CodeUnit) ∈ formatCommandName name .none addAmpersand ↔ needed name = true := by
  cases isNeeded : needed name with
  | true =>
      rw [formatCommandName_needed isNeeded]
      exact iff_of_true (List.mem_append_right _ List.mem_cons_self) rfl
  | false =>
      obtain ⟨lead, led, split⟩ := formatCommandName_bare isNeeded addAmpersand
      rw [split]
      refine iff_of_false (fun listed => ?_) Bool.false_ne_true
      rcases List.mem_append.mp listed with inLead | inName
      · rcases led with rfl | rfl
        · cases inLead
        · exact absurd inLead (by decide)
      · have quoted := ((isBare_of_not_needed isNeeded).2 _ inName).2.1
        cases quoted

/-- Names that are written alike up to letter case are alike up to letter case. -/
theorem lower_formatted_injective {q : Quote} {addAmpersand : Bool}
    (same : lower (formatCommandName a q addAmpersand) = lower (formatCommandName b q addAmpersand)) :
    lower a = lower b := by
  have wrapped : ∀ q : Quote, lower (q.wrap a) = lower (q.wrap b) → lower a = lower b := by
    intro q same
    rw [lower_wrap, lower_wrap] at same
    exact wrap_injective same
  cases q with
  | single => exact wrapped .single same
  | double => exact wrapped .double same
  | none =>
      have isSign : IsSign ('\x27' : CodeUnit).toNat := by decide
      have quoted : needed a = true ↔ needed b = true := by
        rw [← quote_mem_formatted a addAmpersand, ← mem_lower_iff isSign, same, mem_lower_iff isSign,
          quote_mem_formatted]
      cases isNeeded : needed a with
      | true =>
          rw [formatCommandName_needed isNeeded, formatCommandName_needed (quoted.mp isNeeded)] at same
          cases addAmpersand with
          | false => exact wrapped .single same
          | true =>
              rw [if_pos rfl, lower_lead, lower_lead] at same
              exact wrapped .single (List.append_cancel_left same)
      | false =>
          have bareB : needed b = false := by
            rw [Bool.eq_false_iff, Ne.eq_def, ← quoted, isNeeded]
            exact Bool.false_ne_true
          obtain ⟨before, ledA, splitA⟩ := formatCommandName_bare isNeeded addAmpersand
          obtain ⟨behind, ledB, splitB⟩ := formatCommandName_bare bareB addAmpersand
          rw [splitA, splitB] at same
          exact lower_bare_injective isNeeded bareB ledA ledB same

/-- Values that are written alike up to letter case are alike up to letter case. -/
theorem lower_quoteValue_injective {q : Quote}
    (same : lower (quoteValue a q) = lower (quoteValue b q)) : lower a = lower b := by
  have written : ∀ t, formatCommandName t q false = quoteValue t q := by
    intro t
    obtain ⟨lead, split, rfl | ⟨added, -⟩⟩ := formatCommandName_eq t q false
    · exact split
    · cases added
  rw [← written, ← written] at same
  exact lower_formatted_injective same

end Written

end TabCompletion.Quoting
