import TabCompletion.Proofs.Types.Completeness
import TabCompletion.Proofs.Types.Elements

/-!
What a type name resolves to: the type of arrays if the name ends in empty brackets, and a registered
type otherwise. A registered type never has the name of an array type that was made on lookup, so two
resolved types of one name are the same type, or two array types that differ in the letter case of
their elements only.
-/

namespace TabCompletion

/-! The end of a text in lower case. -/

namespace Text

variable {sign : CodeUnit}

theorem points_eq_nil {t : Text} (none : points t = []) : t = [] := by
  fun_cases points t with
  | case1 => rfl
  | case2 u => cases none
  | case3 u v rest halves => simp [points, halves] at none
  | case4 u v rest apart => simp [points, apart] at none

theorem getLast?_of_points (small : sign.toNat < 0xD800) {t : Text}
    (last : (points t).getLast? = some sign.toNat) : t.getLast? = some sign := by
  fun_induction points t with
  | case1 => cases last
  | case2 u => simpa [UInt16.toNat_inj] using last
  | case3 u v rest halves ih =>
      rw [Bool.and_eq_true, isHighHalf_iff, isLowHalf_iff] at halves
      have beyond : pairPoint u v = 0x10000 + (u.toNat - 0xD800) * 0x400 + (v.toNat - 0xDC00) := rfl
      rw [List.getLast?_cons] at last
      cases later : (points rest).getLast? with
      | none =>
          rw [later, Option.getD_none, Option.some_inj] at last
          omega
      | some point =>
          rw [later, Option.getD_some] at last
          have isLast := ih (later.trans last)
          rw [List.getLast?_cons, List.getLast?_cons, isLast]
          rfl
  | case4 u v rest apart ih =>
      rw [List.getLast?_cons] at last
      cases later : (points (v :: rest)).getLast? with
      | none => cases points_eq_nil (List.getLast?_eq_none_iff.mp later)
      | some point =>
          rw [later, Option.getD_some] at last
          rw [List.getLast?_cons, ih (later.trans last)]
          rfl

theorem unitsOfPoint_end (small : sign.toNat < 0xD800) (point : Nat) :
    ∃ front last, unitsOfPoint point = front ++ [last] ∧ (last = sign → point = sign.toNat) := by
  rw [unitsOfPoint]
  split
  · rename_i isUnit
    refine ⟨[], _, rfl, fun same => ?_⟩
    rw [← same, UInt16.toNat_ofNat_of_lt' isUnit]
  · refine ⟨[_], _, rfl, fun same => ?_⟩
    have low := congrArg UInt16.toNat same
    rw [UInt16.toNat_ofNat_of_lt' (show _ < 65536 by omega)] at low
    omega

theorem lowerPoint_ne_nil (point : Nat) : lowerPoint point ≠ [] := by
  rw [lowerPoint]
  split
  · simp
  · split <;> simp

/-- Lower case leads to a sign from that sign only, and so does the end of a run of points. -/
theorem lowerPoints_end (isSign : IsSign sign.toNat) (before ps : List Nat) (q : Nat) :
    ∃ front last, lowerPoints before (ps ++ [q]) = front ++ [last] ∧
      (last = sign.toNat → q = sign.toNat) := by
  have small := isSign.1
  induction ps generalizing before with
  | nil =>
      by_cases sigma : q = 0x3A3
      · refine ⟨[], if meetsCased before && !meetsCased [] then 0x3C2 else 0x3C3, ?_, ?_⟩
        · simp [lowerPoints, sigma]
        · split <;> omega
      · have count := lowerPoint_count isSign q
        rcases List.eq_nil_or_concat (lowerPoint q) with absent | ⟨front, last, split⟩
        · exact absurd absent (lowerPoint_ne_nil q)
        · rw [List.concat_eq_append] at split
          refine ⟨front, last, by simp [lowerPoints, sigma, split], fun same => ?_⟩
          by_contra other
          rw [if_neg other, split, same, List.count_append] at count
          simp at count
  | cons point rest ih =>
      obtain ⟨front, last, split, same⟩ := ih (point :: before)
      rw [List.cons_append, lowerPoints, split, ← List.append_assoc]
      exact ⟨_, last, rfl, same⟩

/-- What lower case ends in a sign ends in that sign before. -/
theorem getLast?_of_lower (isSign : IsSign sign.toNat) {t : Text}
    (last : (lower t).getLast? = some sign) : t.getLast? = some sign := by
  have small := isSign.1
  rw [lower_eq, lowerAfter] at last
  refine getLast?_of_points (by omega) ?_
  rcases List.eq_nil_or_concat (points t) with absent | ⟨ps, q, isEnd⟩
  · rw [absent] at last
    cases last
  · rw [List.concat_eq_append] at isEnd
    obtain ⟨front, point, split, ofPoint⟩ := lowerPoints_end isSign [] ps q
    obtain ⟨units, unit, written, ofUnit⟩ := unitsOfPoint_end (by omega : sign.toNat < 0xD800) point
    have whole : ofPoints [point] = unitsOfPoint point := List.flatMap_singleton ..
    rw [isEnd, split, ofPoints_append, whole, written, ← List.append_assoc, List.getLast?_concat,
      Option.some_inj] at last
    rw [isEnd, List.getLast?_concat, ofPoint (ofUnit last)]

theorem lower_closed (t : Text) : lower (t ++ "]") = lower t ++ "]" := by
  rw [lower_eq, lower_eq]
  exact lowerAfter_concat (u := ']') (by decide) (by decide +kernel)

theorem lower_suffixed (t : Text) : lower (t ++ "[]") = lower t ++ "[]" := by
  have opened : lower (t ++ "[") = lower t ++ "[" := by
    rw [lower_eq, lower_eq]
    exact lowerAfter_concat (u := '[') (by decide) (by decide +kernel)
  have apart : ∀ s : Text, s ++ Text.ofString "[]" = s ++ Text.ofString "[" ++ "]" := by
    intro s
    rw [List.append_assoc]
    rfl
  rw [apart, lower_closed, opened, apart]

/-- Array names end in empty brackets, and lower case does not make a name one of them. -/
theorem suffix_of_lower {t : Text} (suffixed : Text.ofString "[]" <:+ lower t) :
    Text.ofString "[]" <:+ t := by
  obtain ⟨front, split⟩ := suffixed
  have apart : front ++ Text.ofString "[]" = front ++ [('[' : CodeUnit)] ++ "]" := by
    rw [List.append_assoc]
    rfl
  rw [apart] at split
  have isLast : t.getLast? = some (']' : CodeUnit) := by
    refine getLast?_of_lower (by decide) ?_
    rw [← split]
    exact List.getLast?_concat
  obtain ⟨body, rfl⟩ := List.getLast?_eq_some_iff.mp isLast
  have isNext : body.getLast? = some ('[' : CodeUnit) := by
    refine getLast?_of_lower (by decide) ?_
    have inner : lower body = front ++ [('[' : CodeUnit)] :=
      List.append_cancel_right ((lower_closed body).symm.trans split.symm)
    rw [inner, List.getLast?_concat]
  obtain ⟨front', rfl⟩ := List.getLast?_eq_some_iff.mp isNext
  exact ⟨front', by rw [List.append_assoc]; rfl⟩

end Text

/-! Definitions of written names. -/

namespace TypeName

theorem bracketless_before {t : Text} {i : Nat} (found : Text.indexOf? "[" t = some i) :
    brackets (t.take i) = 0 := by
  induction t generalizing i with
  | nil => cases found
  | cons u rest ih =>
      rw [Text.indexOf?] at found
      split at found
      · cases found
        rfl
      · rename_i other
        obtain ⟨j, later, rfl⟩ := Option.map_eq_some_iff.mp found
        have noBracket : u ≠ ('[' : CodeUnit) := by
          rintro rfl
          exact other rfl
        rw [List.take_succ_cons, brackets, List.count_cons_of_ne noBracket]
        exact ih later

theorem brackets_suffixed {t : Text} (suffixed : Text.ofString "[]" <:+ t) : 0 < brackets t :=
  Nat.lt_of_lt_of_le (by decide) (brackets_le suffixed.sublist)

theorem isArray_parse (text : Text) :
    (parse text).isArray = Text.endsWith (Text.trim text) "[]" := by
  rw [parse]
  dsimp only
  generalize (if Text.endsWith (Text.trim text) "[]" then
      (Text.trim text).take ((Text.trim text).length - 2) else Text.trim text) = name
  split
  · split <;> rfl
  · rfl

/-- A name that is no array name has a definition that does not look like one. -/
theorem definition_unsuffixed {text : Text} (isPlain : (parse text).isArray = false) :
    ¬Text.ofString "[]" <:+ (parse text).definition := by
  rw [isArray_parse] at isPlain
  have unsuffixed : ¬Text.ofString "[]" <:+ Text.trim text := fun suffixed =>
    Bool.eq_false_iff.mp isPlain (List.isSuffixOf_iff_suffix.mpr suffixed)
  have bracketless : ∀ p : Parsed, brackets p.baseName = 0 → ¬Text.ofString "[]" <:+ p.definition := by
    intro p none suffixed
    have some := brackets_suffixed suffixed
    have tick : brackets "\x60" = 0 := by decide
    rw [Parsed.definition] at some
    split at some
    · omega
    · rw [brackets_append, brackets_append, brackets_ofNat, tick] at some
      omega
  rw [parse, isPlain]
  dsimp only
  rw [if_neg Bool.false_ne_true]
  split
  · rename_i opened found
    split
    · exact bracketless _ (bracketless_before found)
    · exact unsuffixed
  · exact unsuffixed

end TypeName

/-! Resolved types. -/

namespace Registry

open TabCompletion.TypeName

theorem getTypeWithin_enough (r : Registry) {fuel more : Nat} {name : Text}
    (enough : brackets name < fuel) (atLeast : fuel ≤ more) :
    r.getTypeWithin more name = r.getTypeWithin fuel name := by
  induction fuel generalizing more name with
  | zero => omega
  | succ fuel ih =>
      obtain ⟨more, rfl⟩ : ∃ m, more = m + 1 := ⟨more - 1, by omega⟩
      have whole := brackets_parse name
      rw [getTypeWithin, getTypeWithin]
      dsimp only
      split
      · rename_i isArray
        rw [if_pos isArray] at whole
        rw [ih (by omega) (by omega)]
      · rfl

theorem getTypeWithin_eq (r : Registry) {fuel : Nat} {name : Text} (enough : brackets name < fuel) :
    r.getTypeWithin fuel name = r.getType name := by
  have atMost : brackets name ≤ name.length := List.count_le_length
  rw [getType, r.getTypeWithin_enough (Nat.lt_succ_self (brackets name)) enough,
    r.getTypeWithin_enough (Nat.lt_succ_self (brackets name)) (Nat.succ_le_succ atMost)]

/-- The type of a name, without a bound on the array suffixes. -/
theorem getType_eq (r : Registry) (name : Text) :
    r.getType name =
      if (parse name).isArray then
        some (arrayOf (((r.getType (parse name).element).map (·.fullName)).getD (parse name).element))
      else r.lookup (parse name).definition := by
  have whole := brackets_parse name
  have atMost : brackets name ≤ name.length := List.count_le_length
  rw [getType, getTypeWithin]
  dsimp only
  split
  · rename_i isArray
    rw [if_pos isArray] at whole
    rw [r.getTypeWithin_eq (show brackets (parse name).element < name.length by omega)]
  · rfl

theorem getType_filed {r : Registry} {name : Text} {t : TypeModel}
    (isPlain : (parse name).isArray = false)
    (filed : Assoc.get? r.types (Text.lower (parse name).definition) = some t) :
    r.getType name = some t := by
  rw [getType_eq, isPlain, if_neg Bool.false_ne_true, lookup, filed]

/-- The namespace in front of a name does not make it an array name. -/
theorem suffix_of_system {t : Text} (suffixed : Text.ofString "[]" <:+ "system." ++ t) :
    Text.ofString "[]" <:+ t := by
  rcases List.suffix_or_suffix_of_suffix suffixed (List.suffix_append _ t) with inside | ⟨front, split⟩
  · exact inside
  · -- Otherwise the name is shorter than the brackets, and the dot is one of their units.
    match front with
    | [] => exact ⟨[], split.symm⟩
    | [_] =>
        obtain rfl : t = Text.ofString "]" := (List.cons.inj split).2
        exact absurd suffixed (by decide)
    | _ :: _ :: more =>
        obtain ⟨-, rfl⟩ := List.append_eq_nil_iff.mp (List.cons.inj (List.cons.inj split).2).2
        exact absurd suffixed (by decide)

section Filed

variable {r : Registry} (filed : r.Filed)

include filed

/-- A registered type that a name stands for is filed under its own name, which is no array name. -/
theorem lookup_registered {name : Text} {model : TypeModel} (found : r.lookup name = some model)
    (unsuffixed : ¬Text.ofString "[]" <:+ name) :
    Assoc.get? r.types (Text.lower model.fullName) = some model ∧
      ¬Text.ofString "[]" <:+ Text.lower model.fullName := by
  obtain ⟨key, isFiled, apart⟩ : ∃ key, Assoc.get? r.types key = some model ∧
      ¬Text.ofString "[]" <:+ key := by
    have direct : ¬Text.ofString "[]" <:+ Text.lower name := mt Text.suffix_of_lower unsuffixed
    have system := mt suffix_of_system direct
    rw [lookup] at found
    split at found
    · rename_i isDirect
      cases found
      exact ⟨_, isDirect, direct⟩
    · split at found
      · rename_i target isTarget
        split at found
        · exact ⟨_, found, system⟩
        · refine ⟨_, found, fun suffixed => ?_⟩
          have opens := brackets_suffixed suffixed
          rw [brackets_lower, filed.targets isTarget] at opens
          exact Nat.lt_irrefl 0 opens
      · exact ⟨_, found, system⟩
  rw [filed.filed isFiled]
  exact ⟨isFiled, apart⟩

/-- A name stands for the type of arrays of some elements or for a registered type. -/
theorem getType_cases {name : Text} {model : TypeModel} (found : r.getType name = some model) :
    ((parse name).isArray = true ∧ ∃ element, model = arrayOf element) ∨
      Assoc.get? r.types (Text.lower model.fullName) = some model ∧
        ¬Text.ofString "[]" <:+ Text.lower model.fullName := by
  rw [getType_eq] at found
  split at found
  · rename_i isArray
    cases found
    exact Or.inl ⟨isArray, _, rfl⟩
  · rename_i isPlain
    exact Or.inr (lookup_registered filed found
      (definition_unsuffixed (Bool.eq_false_iff.mpr isPlain)))

/-- Two resolved types of one name are the same, or both are types of arrays. -/
theorem getType_alike {name other : Text} {model twin : TypeModel}
    (found : r.getType name = some model) (isOther : r.getType other = some twin)
    (same : Text.lower model.fullName = Text.lower twin.fullName) :
    model = twin ∨ ∃ element element', model = arrayOf element ∧ twin = arrayOf element' := by
  have suffixed : ∀ element, Text.ofString "[]" <:+ Text.lower (arrayOf element).fullName :=
    fun element => ⟨Text.lower element, (Text.lower_suffixed element).symm⟩
  rcases getType_cases filed found with ⟨-, element, rfl⟩ | ⟨isFiled, apart⟩ <;>
    rcases getType_cases filed isOther with ⟨-, element', rfl⟩ | ⟨isFiled', apart'⟩
  · exact Or.inr ⟨_, _, rfl, rfl⟩
  · exact absurd (same ▸ suffixed element) apart'
  · exact absurd (same ▸ suffixed element') apart
  · rw [same, isFiled'] at isFiled
    exact Or.inl (Option.some.inj isFiled).symm

end Filed

/-! Registries that types were added to. -/

theorem filed_addType {r : Registry} (filed : r.Filed) (model : TypeModel) :
    (r.addType model).Filed where
  filed := by
    intro key other found
    rw [addType, Assoc.get?_set] at found
    split at found
    · rename_i isKey
      cases found
      exact isKey.symm
    · exact filed.filed found
  targets := filed.targets

theorem filed_added (models : List TypeModel) : (Catalog.added models).Filed := by
  have goesOn : ∀ r : Registry, r.Filed → (models.foldl addType r).Filed := by
    induction models with
    | nil => exact fun _ filed => filed
    | cons first rest ih => exact fun r filed => ih _ (filed_addType filed first)
  exact goesOn _ ⟨plain_bundled.filed, plain_bundled.targets⟩

end Registry

end TabCompletion
