import TabCompletion.Completion.Member
import TabCompletion.Proofs.Assoc
import TabCompletion.Proofs.Text.Literals
import TabCompletion.Proofs.Text.Lowering

/-!
Element types come to an end. An array type is made on lookup and its name opens one bracket more
than that of its elements, however that one is resolved. So where no registered type names a type of
elements, the element types of a name are listed to the last.
-/

namespace TabCompletion

/-! Brackets of a name. -/

namespace TypeName

/-- How many brackets a name opens. -/
def brackets (t : Text) : Nat := t.count ('[' : CodeUnit)

theorem brackets_append (s t : Text) : brackets (s ++ t) = brackets s + brackets t :=
  List.count_append

theorem brackets_le {s t : Text} (part : s.Sublist t) : brackets s ≤ brackets t := part.count_le _

theorem brackets_lower (t : Text) : brackets (Text.lower t) = brackets t :=
  Text.lower_count (by decide) t

theorem trim_sublist (t : Text) : (Text.trim t).Sublist t := by
  have right : ∀ t : Text, (Text.trimRight t).Sublist t := by
    intro t
    have part := (List.dropWhile_sublist (l := t.reverse) Text.isSpace).reverse
    rwa [List.reverse_reverse] at part
  exact (right _).trans (List.dropWhile_sublist _)

theorem splitArguments_sublist (depth : Int) (current t : Text) :
    (splitArguments depth current t).flatten.Sublist (current.reverse ++ t) := by
  induction t generalizing depth current with
  | nil => simp [splitArguments]
  | cons u rest ih =>
      have later : ∀ depth, (splitArguments depth (u :: current) rest).flatten.Sublist
          (current.reverse ++ u :: rest) := by
        intro depth
        simpa using ih depth (u :: current)
      rw [splitArguments]
      split
      · exact later _
      split
      · exact later _
      split
      · rw [List.flatten_cons]
        exact (List.Sublist.refl _).append ((ih depth []).cons u)
      · exact later _

theorem brackets_join (pieces : List Text) :
    brackets (Text.join "," pieces) = brackets pieces.flatten := by
  induction pieces with
  | nil => rfl
  | cons piece rest ih =>
      cases rest with
      | nil => simp [Text.join]
      | cons next more =>
          have split : Text.join "," (piece :: next :: more) =
              piece ++ ("," ++ Text.join "," (next :: more)) := by simp [Text.join]
          have separator : brackets "," = 0 := by decide
          rw [split, brackets_append, brackets_append, ih, separator, Nat.zero_add,
            ← brackets_append, ← List.flatten_cons]

theorem brackets_trimmed (pieces : List Text) :
    brackets ((pieces.map Text.trim).filter (!·.isEmpty)).flatten ≤ brackets pieces.flatten := by
  induction pieces with
  | nil => exact Nat.le_refl _
  | cons piece rest ih =>
      rw [List.map_cons, List.filter_cons, List.flatten_cons, brackets_append]
      split
      · rw [List.flatten_cons, brackets_append]
        exact Nat.add_le_add (brackets_le (trim_sublist piece)) ih
      · exact Nat.le_trans ih (Nat.le_add_left _ _)

theorem indexOf?_bracket {t : Text} {i : Nat} (found : Text.indexOf? "[" t = some i) :
    t = t.take i ++ ("[" ++ t.drop (i + 1)) := by
  induction t generalizing i with
  | nil => cases found
  | cons u rest ih =>
      rw [Text.indexOf?] at found
      split at found
      · rename_i first
        cases found
        have isBracket : ('[' : CodeUnit) = u := by
          simpa [Text.ofString, Text.unitsOfPoint] using first
        rw [← isBracket]
        rfl
      · obtain ⟨j, later, rfl⟩ := Option.map_eq_some_iff.mp found
        rw [List.take_succ_cons, List.cons_append, List.drop_succ_cons, ← ih later]

/-- The parts of a name in brackets open no more of them than the name. -/
theorem brackets_arguments {name : Text} {i : Nat} (found : Text.indexOf? "[" name = some i) :
    brackets (name.take i) + (1 + brackets (((splitArguments 0 []
      (Text.slice name (i + 1) (name.length - 1))).map Text.trim).filter (!·.isEmpty)).flatten) ≤
      brackets name := by
  have inner : (Text.slice name (i + 1) (name.length - 1)).Sublist (name.drop (i + 1)) :=
    (List.take_sublist _ _).drop _
  have pieces := brackets_le
    ((splitArguments_sublist 0 [] (Text.slice name (i + 1) (name.length - 1))).trans inner)
  have shorter := brackets_trimmed (splitArguments 0 []
    (Text.slice name (i + 1) (name.length - 1)))
  have whole : brackets name = brackets (name.take i) + (1 + brackets (name.drop (i + 1))) := by
    conv => lhs; rw [indexOf?_bracket found, brackets_append, brackets_append]
    have opening : brackets "[" = 1 := by decide
    rw [opening]
  omega

theorem brackets_suffix {t : Text} (isArray : Text.endsWith t "[]" = true) :
    brackets (t.take (t.length - 2)) + 1 = brackets t := by
  obtain ⟨front, rfl⟩ := List.isSuffixOf_iff_suffix.mp isArray
  rw [List.length_append, brackets_append]
  have short : front.length + (Text.ofString "[]").length - 2 = front.length := Nat.add_sub_cancel _ 2
  have suffix : brackets "[]" = 1 := by decide
  rw [short, List.take_left, suffix]

/-- Written again, a name opens no more brackets than it did. -/
theorem Parsed.brackets_element (p : Parsed) :
    brackets p.element ≤ brackets p.baseName +
      if p.arguments.isEmpty then 0 else 1 + brackets p.arguments.flatten := by
  rw [element]
  split
  · exact Nat.le_refl _
  · have opening : brackets "[" = 1 := by decide
    have closing : brackets "]" = 0 := by decide
    rw [brackets_append, brackets_append, brackets_append, brackets_join, opening, closing]
    omega

theorem brackets_ofNat (n : Nat) : brackets (Text.ofNat n) = 0 := by
  refine List.count_eq_zero.mpr fun listed => ?_
  obtain ⟨c, isDigit, isUnit⟩ := List.mem_flatMap.mp listed
  rw [String.toList_ofList] at isDigit
  have value := Nat.isDigit_of_mem_toDigits (by decide) (by decide) isDigit
  simp only [Char.isDigit, Bool.and_eq_true, decide_eq_true_eq, ge_iff_le,
    UInt32.le_iff_toNat_le] at value
  have below : c.toNat ≤ 57 := value.2
  have isWhole : (UInt16.ofNat c.toNat).toNat = c.toNat :=
    UInt16.toNat_ofNat_of_lt' (show _ < 65536 by omega)
  rw [Text.unitsOfPoint, if_pos (by omega), List.mem_singleton] at isUnit
  have bracket : 91 = c.toNat := (congrArg UInt16.toNat isUnit).trans isWhole
  omega

theorem Parsed.brackets_definition (p : Parsed) :
    brackets p.definition ≤ brackets p.element := by
  rw [definition, element]
  split
  · exact Nat.le_refl _
  · have tick : brackets "\x60" = 0 := by decide
    rw [List.append_assoc, List.append_assoc, List.append_assoc, brackets_append, brackets_append,
      brackets_append p.baseName, tick, brackets_ofNat]
    exact Nat.le_add_right _ _

/-- An array name opens one bracket more than the name of its elements. -/
theorem brackets_parse (text : Text) :
    brackets (parse text).element + (if (parse text).isArray then 1 else 0) ≤ brackets text := by
  refine Nat.le_trans ?_ (brackets_le (trim_sublist text))
  have suffixed : brackets (if Text.endsWith (Text.trim text) "[]" then
      (Text.trim text).take ((Text.trim text).length - 2) else Text.trim text) +
      (if Text.endsWith (Text.trim text) "[]" then 1 else 0) = brackets (Text.trim text) := by
    split
    · rename_i isArray
      exact brackets_suffix isArray
    · rfl
  rw [← suffixed, parse]
  dsimp only
  generalize (if Text.endsWith (Text.trim text) "[]" then
      (Text.trim text).take ((Text.trim text).length - 2) else Text.trim text) = name
  split
  · rename_i i found
    split
    · refine Nat.add_le_add_right (Nat.le_trans (Parsed.brackets_element _) ?_) _
      have whole := brackets_arguments found
      dsimp only
      split <;> omega
    · exact Nat.le_refl _
  · exact Nat.le_refl _

end TypeName

/-! Resolved names. -/

namespace Registry

open TabCompletion.TypeName

/-- Types stand under the lower case of their names and name no type of elements; no accelerator
stands for an array. -/
structure Plain (r : Registry) : Prop where
  filed : ∀ {key model}, Assoc.get? r.types key = some model → Text.lower model.fullName = key
  elements : ∀ {key model}, Assoc.get? r.types key = some model → model.elementType = none
  targets : ∀ {key target}, Assoc.get? r.acceleratorTargets key = some target → brackets target = 0

/-- Types stand under the lower case of their names, and no accelerator stands for an array. -/
structure Filed (r : Registry) : Prop where
  filed : ∀ {key model}, Assoc.get? r.types key = some model → Text.lower model.fullName = key
  targets : ∀ {key target}, Assoc.get? r.acceleratorTargets key = some target → brackets target = 0

section Filed

variable {r : Registry} (filed : r.Filed)

include filed

theorem brackets_filed {key : Text} {model : TypeModel} (found : Assoc.get? r.types key = some model) :
    brackets model.fullName = brackets key := by
  rw [← brackets_lower, filed.filed found]

theorem lookup_filed {name : Text} {model : TypeModel} (found : r.lookup name = some model) :
    ∃ key, Assoc.get? r.types key = some model ∧ brackets key ≤ brackets name := by
  have system : brackets ("system." ++ Text.lower name) ≤ brackets name := by
    have none : brackets "system." = 0 := by decide
    rw [brackets_append, none, Nat.zero_add, brackets_lower]
  rw [lookup] at found
  split at found
  · rename_i direct
    cases found
    exact ⟨_, direct, Nat.le_of_eq (brackets_lower name)⟩
  · split at found
    · rename_i target isTarget
      split at found
      · exact ⟨_, found, system⟩
      · refine ⟨_, found, ?_⟩
        rw [brackets_lower, filed.targets isTarget]
        exact Nat.zero_le _
    · exact ⟨_, found, system⟩

/-- A type opens no more brackets than the name that was looked up. It is registered or a type of arrays,
and the name of their elements opens fewer. -/
theorem brackets_getTypeWithin {fuel : Nat} {name : Text} {model : TypeModel}
    (found : r.getTypeWithin fuel name = some model) :
    brackets model.fullName ≤ brackets name ∧
      ((∃ element, model = arrayOf element ∧ brackets element < brackets name) ∨
        ∃ key, Assoc.get? r.types key = some model) := by
  induction fuel generalizing name model with
  | zero => cases found
  | succ fuel ih =>
      have whole := brackets_parse name
      rw [getTypeWithin] at found
      split at found
      · rename_i isArray
        cases found
        have resolved : brackets (((r.getTypeWithin fuel (parse name).element).map
            (·.fullName)).getD (parse name).element) ≤ brackets (parse name).element := by
          cases known : r.getTypeWithin fuel (parse name).element with
          | none => exact Nat.le_refl _
          | some element => exact (ih known).1
        have suffix : brackets "[]" = 1 := by decide
        rw [if_pos isArray] at whole
        constructor
        · rw [arrayOf, brackets_append, suffix]
          omega
        · exact Or.inl ⟨_, rfl, by omega⟩
      · obtain ⟨key, isFiled, below⟩ := lookup_filed filed found
        have written := (parse name).brackets_definition
        constructor
        · rw [brackets_filed filed isFiled]
          omega
        · exact Or.inr ⟨key, isFiled⟩

end Filed

section Plain

variable {r : Registry} (plain : r.Plain)

include plain

theorem Plain.isFiled : r.Filed := ⟨plain.filed, plain.targets⟩

/-- Where no registered type names elements, the name of the elements of a type opens fewer brackets. -/
theorem brackets_element {fuel : Nat} {name element : Text} {model : TypeModel}
    (found : r.getTypeWithin fuel name = some model) (named : model.elementType = some element) :
    brackets element < brackets name := by
  rcases (brackets_getTypeWithin plain.isFiled found).2 with ⟨_, rfl, fewer⟩ | ⟨key, isFiled⟩
  · cases named
    exact fewer
  · rw [plain.elements isFiled] at named
    cases named

theorem elementChain?_isSome {fuel : Nat} {name : Text} (enough : brackets name < fuel) :
    (r.elementChain? fuel name).isSome = true := by
  -- The induction is on the fuel; every element type opens fewer brackets than the type.
  induction fuel generalizing name with
  | zero => omega
  | succ fuel ih =>
      rw [elementChain?]
      split
      · rename_i element named
        obtain ⟨model, found, isElement⟩ :=
          Option.bind_eq_some_iff.mp (Option.filter_eq_some_iff.mp named).1
        have fewer := brackets_element plain found isElement
        rw [Option.isSome_map]
        exact ih (by omega)
      · rfl

/-- The element types of a name come to an end. -/
theorem elementChain?_ends (typeName : Text) :
    (r.elementChain? (r.elementBound typeName) typeName).isSome = true := by
  refine elementChain?_isSome plain ?_
  have atMost : brackets typeName ≤ typeName.length := List.count_le_length
  have bounded : typeName.length + 2 ≤ r.elementBound typeName := by
    rw [elementBound]
    induction r.allTypes with
    | nil => exact Nat.le_refl _
    | cons model rest ih => exact Nat.le_trans ih (Nat.le_add_left _ _)
  omega

end Plain

/-! Registries without element types. -/

theorem plain_build {types : List TypeModel} {accelerators : List (Text × Text)}
    (elementless : ∀ model ∈ types, model.elementType = none)
    (targets : ∀ pair ∈ accelerators, brackets pair.2 = 0) (names : List Text) :
    (build types accelerators names).Plain where
  filed := by
    intro key model found
    obtain ⟨other, -, same⟩ := List.mem_map.mp (Assoc.mem_of_get?_ofList found)
    cases same
    rfl
  elements := by
    intro key model found
    obtain ⟨other, listed, same⟩ := List.mem_map.mp (Assoc.mem_of_get?_ofList found)
    cases same
    exact elementless _ listed
  targets := by
    intro key target found
    obtain ⟨other, listed, same⟩ := List.mem_map.mp (Assoc.mem_of_get?_ofList found)
    cases same
    exact targets _ listed

theorem accelerators_bracketless : ∀ pair ∈ Bundled.accelerators, brackets pair.2 = 0 := by
  refine List.forall_iff_forall_mem.mp ?_
  rw [Bundled.accelerators, Text.ofString_eq]
  decide +kernel

theorem plain_bundled : bundled.Plain :=
  plain_build (List.forall_iff_forall_mem.mp (by decide +kernel)) accelerators_bracketless _

theorem plain_addType {r : Registry} (plain : r.Plain) {model : TypeModel}
    (elementless : model.elementType = none) : (r.addType model).Plain where
  filed := by
    intro key other found
    rw [addType, Assoc.get?_set] at found
    split at found
    · rename_i isKey
      cases found
      exact isKey.symm
    · exact plain.filed found
  elements := by
    intro key other found
    rw [addType, Assoc.get?_set] at found
    split at found
    · cases found
      exact elementless
    · exact plain.elements found
  targets := plain.targets

theorem plain_added {models : List TypeModel}
    (elementless : ∀ model ∈ models, model.elementType = none) {r : Registry} (plain : r.Plain) :
    (models.foldl addType r).Plain := by
  induction models generalizing r with
  | nil => exact plain
  | cons first rest ih =>
      exact ih (fun model listed => elementless model (List.mem_cons_of_mem _ listed))
        (plain_addType plain (elementless first List.mem_cons_self))

end Registry

end TabCompletion
