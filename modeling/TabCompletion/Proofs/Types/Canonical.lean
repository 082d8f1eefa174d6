import TabCompletion.Proofs.Quoting.Lowering
import TabCompletion.Proofs.Types.Notation

/-!
Resolved names that are resolved again. The full name of a registered type stands for that type, and so
does its short form in signatures. The name of an array type stands for itself if each of its suffixes
peels off and leaves what is in front of it. From two suffixes behind a name without arguments one is
lost, so these are the names that do not stand for themselves.
-/

namespace TabCompletion

namespace Text

theorem Led.bracketed {t : Text} (led : Led t) (rest : Text) : Led (t ++ ("[" ++ rest)) := by
  intro u first
  cases t with
  | nil =>
      cases first
      decide
  | cons v more => exact led u first

/-- Brackets leave no blanks at the end of a name. -/
theorem Led.trimmed_bracketed {t : Text} (led : Led t) (inner : Text) :
    Trimmed (t ++ ("[" ++ (inner ++ "]"))) := by
  refine ⟨led.bracketed _, fun u last => ?_⟩
  rw [← List.append_assoc, ← List.append_assoc] at last
  obtain rfl := Option.some.inj (List.getLast?_concat.symm.trans last)
  decide

theorem Led.append {t : Text} (led : Led t) : Led (t ++ "[]") := led.bracketed "]"

theorem Led.of_append {s t : Text} (led : Led (s ++ t)) : Led s := by
  intro u first
  refine led u ?_
  rw [List.head?_append, first]
  rfl

theorem Led.trim_suffixed {t : Text} (led : Led t) : trim (t ++ "[]") = t ++ "[]" :=
  (led.trimmed_bracketed []).trim_eq

end Text

namespace TypeName

/-- Each array suffix peels off, and what stands in front of it is then read as it is written. -/
inductive Peels : Text → Prop
  | plain {name : Text} (unsuffixed : ¬Text.ofString "[]" <:+ name) : Peels name
  | array {name : Text} (whole : (parse (name ++ "[]")).element = name) (inner : Peels name) :
      Peels (name ++ "[]")

theorem peels_suffixed (name : Text) :
    Peels (name ++ "[]") ↔ (parse (name ++ "[]")).element = name ∧ Peels name := by
  constructor
  · intro peels
    generalize isWhole : name ++ Text.ofString "[]" = text at peels
    cases peels with
    | plain unsuffixed => exact absurd ⟨name, isWhole⟩ unsuffixed
    | array whole inner =>
        obtain rfl := List.append_cancel_right isWhole
        exact ⟨whole, inner⟩
  · rintro ⟨whole, inner⟩
    exact .array whole inner

theorem bracketless_unsuffixed {name : Text} (absent : ('[' : CodeUnit) ∉ name) :
    ¬Text.ofString "[]" <:+ name := fun suffixed => absent (suffixed.subset (by decide))

theorem led_respelled {text name : Text} (isArray : Text.trim text = name ++ "[]") :
    Text.Led (respelled name) := by
  intro u first
  have led := (Text.trimmed_trim text).1
  rw [isArray] at led
  exact led.of_append u (respelled_head name first)

theorem brackets_respelled {text name : Text} (isArray : Text.trim text = name ++ "[]") :
    brackets (respelled name) < brackets text := by
  have fewer := brackets_parse text
  rw [parse_suffixed isArray] at fewer
  exact fewer

theorem led_suffixed {name : Text} (led : Text.Led name) (count : Nat) :
    Text.Led (suffixed name count) := by
  induction count with
  | zero => exact led
  | succ count ih => exact ih.append

end TypeName

namespace Registry

open TabCompletion.TypeName

/-- The full name that a name stands for, or the name itself. -/
def fullName (r : Registry) (name : Text) : Text := (r.resolveFullName name).getD name

theorem getType_array (r : Registry) {text name : Text} (isArray : Text.trim text = name ++ "[]") :
    r.getType text = some (arrayOf (r.fullName (respelled name))) := by
  have isParsed : (parse text).isArray = true := by rw [parse_suffixed isArray]
  rw [getType_eq, if_pos isParsed, element_suffixed isArray]
  rfl

theorem resolve_array (r : Registry) {text name : Text} (isArray : Text.trim text = name ++ "[]") :
    r.resolveFullName text = some (r.fullName (respelled name) ++ "[]") := by
  rw [resolveFullName, getType_array r isArray]
  rfl

theorem resolve_bracketless (r : Registry) {name : Text} (trimmed : Text.Trimmed name)
    (absent : ('[' : CodeUnit) ∉ name) : r.resolveFullName name = (r.lookup name).map (·.fullName) := by
  have plain : parse name = { baseName := name, arguments := [], isArray := false } := by
    rw [parse_unsuffixed, trimmed.trim_eq, parts_bracketless absent]
    rw [trimmed.trim_eq]
    exact bracketless_unsuffixed absent
  rw [resolveFullName, getType_eq, plain]
  rfl

theorem peels_of_unresolved (r : Registry) {name : Text} (led : Text.Led name)
    (unknown : r.resolveFullName name = none) : Peels name := by
  refine .plain ?_
  rintro ⟨front, rfl⟩
  rw [resolve_array r led.of_append.trim_suffixed] at unknown
  cases unknown

/-! Registries with proper names. -/

/-- A name that is filled and has neither blanks around it nor brackets. -/
structure ProperName (name : Text) : Prop where
  filled : name ≠ []
  trimmed : Text.Trimmed name
  opens : ('[' : CodeUnit) ∉ name
  closes : (']' : CodeUnit) ∉ name

/-- Every registered type is filed under its name, which is a proper one. -/
structure Tidy (r : Registry) : Prop where
  filed : r.Filed
  held : ∀ model ∈ r.allTypes, Assoc.get? r.types (Text.lower model.fullName) = some model
  named : ∀ model ∈ r.allTypes, ProperName model.fullName

/-- The name is the full name of a registered type. -/
def Registered (r : Registry) (name : Text) : Prop := ∃ model ∈ r.allTypes, model.fullName = name

section Tidy

variable {r : Registry} (tidy : r.Tidy)

include tidy

theorem Registered.proper {name : Text} (registered : r.Registered name) : ProperName name := by
  obtain ⟨model, listed, rfl⟩ := registered
  exact tidy.named model listed

theorem lookup_held {name other : Text} (registered : r.Registered name)
    (same : Text.lower other = Text.lower name) :
    (Assoc.get? r.types (Text.lower other)).map (·.fullName) = some name := by
  obtain ⟨model, listed, rfl⟩ := registered
  rw [same, tidy.held model listed]
  rfl

theorem resolve_registered {name : Text} (registered : r.Registered name) :
    r.resolveFullName name = some name := by
  have proper := registered.proper tidy
  obtain ⟨model, isHeld, isNamed⟩ := Option.map_eq_some_iff.mp (lookup_held tidy registered rfl)
  rw [resolve_bracketless r proper.trimmed proper.opens, lookup, isHeld]
  exact congrArg some isNamed

theorem fullName_registered {name : Text} (registered : r.Registered name) :
    r.fullName name = name := by
  rw [fullName, resolve_registered tidy registered]
  rfl

/-- What a name resolves to: a registered type, or the type of arrays of what stands before the
suffix. -/
theorem resolve_cases {text found : Text} (isFound : r.resolveFullName text = some found) :
    ((parse text).isArray = false ∧ r.Registered found) ∨
      ∃ name, Text.trim text = name ++ "[]" ∧ found = r.fullName (respelled name) ++ "[]" := by
  cases isArray : (parse text).isArray with
  | true =>
      obtain ⟨name, whole⟩ := exists_front isArray
      rw [resolve_array r whole, Option.some_inj] at isFound
      exact Or.inr ⟨name, whole, isFound.symm⟩
  | false =>
      obtain ⟨model, isModel, rfl⟩ := Option.map_eq_some_iff.mp isFound
      rcases getType_cases tidy.filed isModel with ⟨isArray', -⟩ | ⟨isFiled, -⟩
      · exact absurd (isArray.symm.trans isArray') Bool.false_ne_true
      · exact Or.inl ⟨rfl, model, Assoc.mem_values_of_get? isFiled, rfl⟩

theorem led_fullName {name : Text} (led : Text.Led name) : Text.Led (r.fullName name) := by
  induction bound : brackets name using Nat.strong_induction_on generalizing name with
  | _ n ih =>
      subst bound
      rw [fullName]
      cases isFound : r.resolveFullName name with
      | none => exact led
      | some found =>
          rcases resolve_cases tidy isFound with ⟨-, registered⟩ | ⟨front, isArray, rfl⟩
          · exact (registered.proper tidy).trimmed.1
          · exact (ih _ (brackets_respelled isArray) (led_respelled isArray) rfl).append

/-- Full names are made of what was written, unless they end in a registered name with suffixes. -/
theorem fullName_cases (name : Text) :
    (r.fullName name).Sublist name ∨
      ∃ base count, r.Registered base ∧ r.fullName name = suffixed base count := by
  induction bound : brackets name using Nat.strong_induction_on generalizing name with
  | _ n ih =>
      subst bound
      rw [fullName]
      cases isFound : r.resolveFullName name with
      | none => exact Or.inl (List.Sublist.refl _)
      | some found =>
          rcases resolve_cases tidy isFound with ⟨-, registered⟩ | ⟨front, isArray, rfl⟩
          · exact Or.inr ⟨found, 0, registered, rfl⟩
          · rcases ih _ (brackets_respelled isArray) (respelled front) rfl with
              part | ⟨base, count, registered, isSuffixed⟩
            · refine Or.inl (List.Sublist.trans ?_ (trim_sublist name))
              rw [isArray]
              exact (part.trans (respelled_sublist front)).append (List.Sublist.refl _)
            · refine Or.inr ⟨base, count + 1, registered, ?_⟩
              rw [Option.getD_some, isSuffixed, suffixed]

/-! Resolving again. -/

/-- Of two or more suffixes of a registered name one is lost. -/
theorem resolve_suffixed {base : Text} (registered : r.Registered base) (count : Nat) :
    r.resolveFullName (suffixed base (count + 2)) = some (suffixed base (count + 1)) := by
  have proper := registered.proper tidy
  have led := fun count => (led_suffixed proper.trimmed.1 count).trim_suffixed
  induction count with
  | zero =>
      rw [suffixed, resolve_array r (led 1), respelled_array proper.opens,
        fullName_registered tidy registered]
      rfl
  | succ count ih =>
      rw [suffixed, resolve_array r (led (count + 2)), respelled_suffixed_bracketless proper.opens,
        fullName, ih]
      rfl

theorem resolve_suffixed_once {base : Text} (registered : r.Registered base) :
    r.resolveFullName (suffixed base 1) = some (suffixed base 1) := by
  have proper := registered.proper tidy
  rw [suffixed, resolve_array r (led_suffixed proper.trimmed.1 0).trim_suffixed, suffixed,
    respelled_bracketless proper.opens, fullName_registered tidy registered]

/-- A name that its elements are named by again was written as it is read. -/
theorem respelled_of_fullName {name : Text} (same : r.fullName (respelled name) = name) :
    respelled name = name := by
  rcases fullName_cases tidy (respelled name) with part | ⟨base, count, registered, isSuffixed⟩
  · rw [same] at part
    exact (respelled_sublist name).antisymm part
  · rw [same] at isSuffixed
    have absent := (registered.proper tidy).opens
    match count with
    | 0 => exact respelled_bracketless (isSuffixed ▸ absent)
    | 1 =>
        -- The one suffix is not read, and the registered name has none.
        rw [isSuffixed, respelled_array absent, fullName_registered tidy registered] at same
        have longer := congrArg List.length same
        rw [suffixed, suffixed, List.length_append] at longer
        exact absurd longer (by simp [Text.ofString, Text.unitsOfPoint])
    | count + 2 =>
        rw [isSuffixed]
        exact respelled_suffixed_bracketless absent count

/-- If what a name stands for is settled by its suffixes, so is its full name: a name that nothing stands
for has no suffix to peel off. -/
theorem fullName_again {name : Text} (led : Text.Led name)
    (again : ∀ found, r.resolveFullName name = some found →
      (r.resolveFullName found = some found ↔ Peels found)) :
    r.fullName (r.fullName name) = r.fullName name ↔ Peels (r.fullName name) := by
  have ledFull := led_fullName tidy led
  cases isKnown : r.resolveFullName name with
  | none =>
      have same : r.fullName name = name := by rw [fullName, isKnown]; rfl
      rw [same]
      exact iff_of_true same (peels_of_unresolved r led isKnown)
  | some found =>
      have same : r.fullName name = found := by rw [fullName, isKnown]; rfl
      rw [same] at ledFull ⊢
      constructor
      · intro whole
        cases isFound : r.resolveFullName found with
        | none => exact peels_of_unresolved r ledFull isFound
        | some other =>
            rw [fullName, isFound, Option.getD_some] at whole
            exact (again found isKnown).mp (whole ▸ isFound)
      · intro peels
        rw [fullName, (again found isKnown).mpr peels]
        rfl

theorem resolve_again {name found : Text} (isFound : r.resolveFullName name = some found) :
    r.resolveFullName found = some found ↔ Peels found := by
  induction bound : brackets name using Nat.strong_induction_on generalizing name found with
  | _ n ih =>
      subst bound
      rcases resolve_cases tidy isFound with ⟨-, registered⟩ | ⟨front, isArray, rfl⟩
      · exact iff_of_true (resolve_registered tidy registered)
          (.plain (bracketless_unsuffixed (registered.proper tidy).opens))
      · have led := led_respelled isArray
        have trimmed := (led_fullName tidy led).trim_suffixed
        have settled := fullName_again tidy led fun found isInner =>
          ih _ (brackets_respelled isArray) isInner rfl
        rw [resolve_array r trimmed, peels_suffixed, element_suffixed trimmed, Option.some_inj,
          List.append_left_inj]
        constructor
        · intro same
          have spelled := respelled_of_fullName tidy same
          rw [spelled] at same
          exact ⟨spelled, settled.mp same⟩
        · rintro ⟨spelled, inner⟩
          rw [spelled]
          exact settled.mpr inner

theorem registered_unsuffixed {base : Text} (registered : r.Registered base) (front : Text) :
    base ≠ front ++ "[]" := by
  rintro rfl
  exact bracketless_unsuffixed (registered.proper tidy).opens (List.suffix_append _ _)

/-- A name that stands for a registered type is no array name. -/
theorem plain_of_registered {name base : Text} (registered : r.Registered base)
    (isFound : r.resolveFullName name = some base) : (parse name).isArray = false := by
  rcases resolve_cases tidy isFound with ⟨isPlain, -⟩ | ⟨front, -, same⟩
  · exact isPlain
  · exact absurd same (registered_unsuffixed tidy registered _)

/-- A name that stands for the type of arrays of a registered type has a suffix, and what is in front of
it stands for that type. -/
theorem element_of_registered {name base : Text} (registered : r.Registered base)
    (isFound : r.resolveFullName name = some (base ++ "[]")) :
    ∃ front, Text.trim name = front ++ "[]" ∧ r.resolveFullName (respelled front) = some base := by
  rcases resolve_cases tidy isFound with ⟨-, isSuffixed⟩ | ⟨front, isArray, same⟩
  · exact absurd rfl (registered_unsuffixed tidy isSuffixed base)
  · have isNamed : r.fullName (respelled front) = base := (List.append_cancel_right same).symm
    refine ⟨front, isArray, ?_⟩
    rw [fullName] at isNamed
    cases known : r.resolveFullName (respelled front) with
    | none =>
        -- It would be the name of the registered type, and that is known.
        rw [known, Option.getD_none] at isNamed
        rw [isNamed, resolve_registered tidy registered] at known
        cases known
    | some other =>
        rw [known, Option.getD_some] at isNamed
        rw [isNamed]

end Tidy

/-! Short forms. -/

theorem displayWithin_enough (r : Registry) {fuel more : Nat} {name : Text}
    (enough : brackets name < fuel) (atLeast : fuel ≤ more) :
    r.displayWithin more name = r.displayWithin fuel name := by
  induction fuel generalizing more name with
  | zero => omega
  | succ fuel ih =>
      obtain ⟨more, rfl⟩ : ∃ m, more = m + 1 := ⟨more - 1, by omega⟩
      have whole := brackets_parse name
      rw [displayWithin, displayWithin]
      dsimp only
      split
      · rename_i isArray
        rw [if_pos isArray] at whole
        rw [ih (by omega) (by omega)]
      · rfl

/-- The short form of a name, without a bound on the array suffixes. -/
theorem getDisplayName_eq (r : Registry) (name : Text) :
    r.getDisplayName name =
      if (parse name).isArray then r.getDisplayName (parse name).element ++ "[]"
      else (Assoc.get? r.displayNames (Text.lower (r.fullName name))).getD (r.fullName name) := by
  have whole := brackets_parse name
  have atMost : ∀ t : Text, brackets t ≤ t.length := fun t => List.count_le_length
  have outer := atMost name
  rw [getDisplayName, displayWithin]
  dsimp only
  split
  · rename_i isArray
    rw [if_pos isArray] at whole
    have inner := atMost (parse name).element
    rw [getDisplayName, r.displayWithin_enough (Nat.lt_succ_self (brackets (parse name).element))
      (show brackets (parse name).element + 1 ≤ name.length by omega),
      r.displayWithin_enough (Nat.lt_succ_self (brackets (parse name).element))
      (show brackets (parse name).element + 1 ≤ (parse name).element.length + 1 by omega)]
  · rfl

theorem display_array (r : Registry) {text name : Text} (isArray : Text.trim text = name ++ "[]") :
    r.getDisplayName text = r.getDisplayName (respelled name) ++ "[]" := by
  have isParsed : (parse text).isArray = true := by rw [parse_suffixed isArray]
  rw [getDisplayName_eq, if_pos isParsed, element_suffixed isArray]

/-- The short forms are accelerators of the types that they are shown for. -/
theorem mem_of_shortestAliases {accelerators : List (Text × Text)} {key shortForm : Text}
    (found : Assoc.get? (shortestAliases accelerators) key = some shortForm) :
    ∃ target, (shortForm, target) ∈ accelerators ∧ Text.lower target = key := by
  revert key shortForm
  refine List.foldlRecOn (motive := fun table : Assoc Text => ∀ {key shortForm : Text},
    Assoc.get? table key = some shortForm →
      ∃ target, (shortForm, target) ∈ accelerators ∧ Text.lower target = key) accelerators _
    (by intro _ _ found; cases found) ?_
  rintro table sound ⟨other, target⟩ listed key shortForm found
  have orSet : Assoc.get? (Assoc.set table (Text.lower target) other) key = some shortForm →
      ∃ target, (shortForm, target) ∈ accelerators ∧ Text.lower target = key := by
    intro found
    rw [Assoc.get?_set] at found
    split at found
    · rename_i isKey
      cases found
      exact ⟨target, listed, isKey.symm⟩
    · exact sound found
  dsimp only at found
  split at found
  · split at found
    · exact orSet found
    · exact sound found
  · exact orSet found

/-! Registries that types were added to. -/

theorem build_tables (types : List TypeModel) (accelerators : List (Text × Text)) (names : List Text) :
    (build types accelerators names).displayNames = shortestAliases accelerators ∧
      (build types accelerators names).acceleratorTargets =
          Assoc.ofList (accelerators.map fun pair => (Text.lower pair.1, pair.2)) ∧
        ((build types accelerators names).types.map Prod.fst).Nodup :=
  ⟨rfl, rfl, Assoc.keys_ofList_nodup _⟩

theorem added_tables (models : List TypeModel) :
    (Catalog.added models).displayNames = shortestAliases Bundled.accelerators ∧
      (Catalog.added models).acceleratorTargets =
          Assoc.ofList (Bundled.accelerators.map fun pair => (Text.lower pair.1, pair.2)) ∧
        ((Catalog.added models).types.map Prod.fst).Nodup := by
  have goesOn : ∀ r : Registry, (r.types.map Prod.fst).Nodup →
      (models.foldl addType r).displayNames = r.displayNames ∧
        (models.foldl addType r).acceleratorTargets = r.acceleratorTargets ∧
          ((models.foldl addType r).types.map Prod.fst).Nodup := by
    induction models with
    | nil => exact fun _ distinct => ⟨rfl, rfl, distinct⟩
    | cons first rest ih =>
        exact fun r distinct => ih (r.addType first) (Assoc.keys_set_nodup distinct _ _)
  obtain ⟨isNames, isTargets, isDistinct⟩ :=
    build_tables Bundled.knownTypes Bundled.accelerators Bundled.typeNames
  rw [← bundled] at isNames isTargets isDistinct
  obtain ⟨sameNames, sameTargets, distinct⟩ := goesOn bundled isDistinct
  exact ⟨sameNames.trans isNames, sameTargets.trans isTargets, distinct⟩

theorem tidy_added {models : List TypeModel}
    (proper : ∀ model ∈ (Catalog.added models).allTypes, ProperName model.fullName) :
    (Catalog.added models).Tidy where
  filed := filed_added models
  held := by
    intro model listed
    obtain ⟨⟨key, other⟩, isEntry, rfl⟩ := List.mem_map.mp listed
    have found := (Assoc.get?_eq_some_iff (added_tables models).2.2).mpr isEntry
    rw [(filed_added models).filed found]
    exact found
  named := proper

theorem accelerators_proper {shortForm target : Text}
    (listed : (shortForm, target) ∈ Bundled.accelerators) :
    target ≠ [] ∧ ∀ u ∈ shortForm, Text.isSpace u = false ∧ u ≠ ('[' : CodeUnit) ∧
      u ≠ ('.' : CodeUnit) := by
  have checked : ∀ pair ∈ Bundled.accelerators, (!pair.2.isEmpty && pair.1.all fun u =>
      !Text.isSpace u && u != '[' && u != '.') = true := by
    refine List.forall_iff_forall_mem.mp ?_
    rw [Bundled.accelerators, Text.ofString_eq]
    decide +kernel
  have here := checked _ listed
  simp only [Bool.and_eq_true, List.all_eq_true, Bool.not_eq_true', List.isEmpty_eq_false_iff,
    bne_iff_ne, and_assoc] at here
  exact here

section Added

variable {models : List TypeModel} (tidy : (Catalog.added models).Tidy)
  (apart : ∀ model ∈ (Catalog.added models).allTypes, ∀ pair ∈ (Catalog.added models).accelerators,
    Text.lower model.fullName ≠ Text.lower pair.1)

include tidy apart

theorem resolve_accelerator {shortForm target name : Text}
    (listed : (shortForm, target) ∈ Bundled.accelerators)
    (registered : (Catalog.added models).Registered name)
    (same : Text.lower target = Text.lower name) :
    (Catalog.added models).resolveFullName shortForm = some name := by
  obtain ⟨filled, units⟩ := accelerators_proper listed
  have isTarget : Assoc.get? (Catalog.added models).acceleratorTargets (Text.lower shortForm) =
      some target := by
    rw [(added_tables models).2.1]
    refine Assoc.get?_ofList_of_mem ?_ (List.mem_map.mpr ⟨_, listed, rfl⟩)
    rw [List.map_map]
    exact Catalog.accelerators_distinct
  have untyped : Assoc.get? (Catalog.added models).types (Text.lower shortForm) = none := by
    refine Option.eq_none_iff_forall_ne_some.mpr fun model found => ?_
    refine apart model (Assoc.mem_values_of_get? found) (shortForm, target) ?_ (tidy.filed.filed found)
    rw [Catalog.added_standard models]
    exact listed
  rw [resolve_bracketless _ (Text.Unblank.trimmed fun u listed => (units u listed).1)
      fun listed => (units _ listed).2.1 rfl,
    lookup, untyped, isTarget]
  dsimp only
  rw [if_neg (by rwa [List.isEmpty_iff]), lookup_held tidy registered same]

/-- The short form of a registered type stands for that type. -/
theorem display_registered {name : Text} (registered : (Catalog.added models).Registered name) :
    ∃ shown, Text.Trimmed shown ∧ ('[' : CodeUnit) ∉ shown ∧
      (Catalog.added models).resolveFullName shown = some name ∧
      ∀ other, (parse other).isArray = false →
        (Catalog.added models).resolveFullName other = some name →
        (Catalog.added models).getDisplayName other = shown := by
  have display : ∀ other, (parse other).isArray = false →
      (Catalog.added models).resolveFullName other = some name →
      (Catalog.added models).getDisplayName other =
        (Assoc.get? (Catalog.added models).displayNames (Text.lower name)).getD name := by
    intro other isPlain isName
    rw [getDisplayName_eq, if_neg (Bool.eq_false_iff.mp isPlain), fullName, isName]
    rfl
  cases found : Assoc.get? (Catalog.added models).displayNames (Text.lower name) with
  | none =>
      have proper := registered.proper tidy
      refine ⟨name, proper.trimmed, proper.opens, resolve_registered tidy registered, ?_⟩
      intro other isPlain isName
      rw [display other isPlain isName, found]
      rfl
  | some shortForm =>
      have isShortest := found
      rw [(added_tables models).1] at isShortest
      obtain ⟨target, listed, same⟩ := mem_of_shortestAliases isShortest
      have units := (accelerators_proper listed).2
      refine ⟨shortForm, Text.Unblank.trimmed fun u listed => (units u listed).1,
        fun listed => (units _ listed).2.1 rfl, resolve_accelerator tidy apart listed registered same, ?_⟩
      intro other isPlain isName
      rw [display other isPlain isName, found]
      rfl

theorem resolve_display {name base : Text} (registered : (Catalog.added models).Registered base)
    (isFound : (Catalog.added models).resolveFullName name = some base ∨
      (Catalog.added models).resolveFullName name = some (base ++ "[]")) :
    (Catalog.added models).resolveFullName ((Catalog.added models).getDisplayName name) =
      (Catalog.added models).resolveFullName name := by
  obtain ⟨shown, trimmed, absent, isBase, displayed⟩ := display_registered tidy apart registered
  rcases isFound with isFound | isFound
  · rw [displayed name (plain_of_registered tidy registered isFound) isFound, isBase, isFound]
  · obtain ⟨front, isArray, isElement⟩ := element_of_registered tidy registered isFound
    have isPlain := plain_of_registered tidy registered isElement
    rw [display_array _ isArray, displayed _ isPlain isElement, resolve_array _ trimmed.1.trim_suffixed,
      respelled_bracketless absent, fullName, isBase, isFound]
    rfl

end Added

/-- A resolved name stands for itself exactly if its suffixes peel off. Registered names and their arrays
do, and of more suffixes behind them each resolution takes one away. The short form of a registered type
or of an array of one stands for the same type. -/
theorem resolved_names_again (models : List TypeModel)
    (proper : ∀ model ∈ (Catalog.added models).allTypes, ProperName model.fullName) :
    (∀ name found, (Catalog.added models).resolveFullName name = some found →
      ((Catalog.added models).resolveFullName found = some found ↔ Peels found)) ∧
    (∀ base, (Catalog.added models).Registered base →
      (Catalog.added models).resolveFullName base = some base ∧
      (Catalog.added models).resolveFullName (suffixed base 1) = some (suffixed base 1) ∧
      ∀ count, (Catalog.added models).resolveFullName (suffixed base (count + 2)) =
        some (suffixed base (count + 1))) ∧
    ((∀ model ∈ (Catalog.added models).allTypes, ∀ pair ∈ (Catalog.added models).accelerators,
        Text.lower model.fullName ≠ Text.lower pair.1) →
      ∀ name base, (Catalog.added models).Registered base →
        ((Catalog.added models).resolveFullName name = some base ∨
          (Catalog.added models).resolveFullName name = some (base ++ "[]")) →
        (Catalog.added models).resolveFullName ((Catalog.added models).getDisplayName name) =
          (Catalog.added models).resolveFullName name) := by
  have tidy := tidy_added proper
  refine ⟨fun _ _ => resolve_again tidy, fun base registered => ?_, fun apart _ _ registered isFound =>
    resolve_display tidy apart registered isFound⟩
  exact ⟨resolve_registered tidy registered, resolve_suffixed_once tidy registered,
    resolve_suffixed tidy registered⟩

/-! A registry with one more type. -/

/-- A registered type of its own namespace. -/
def shelf : TypeModel := { fullName := "Demo.Shelf", kind := .cls }

theorem mem_allTypes_added {models : List TypeModel} {model : TypeModel}
    (listed : model ∈ (Catalog.added models).allTypes) :
    model ∈ models ∨ model ∈ Bundled.knownTypes := by
  have goesOn : ∀ r : Registry, model ∈ (models.foldl addType r).allTypes →
      model ∈ models ∨ model ∈ r.allTypes := by
    clear listed
    induction models with
    | nil => exact fun _ listed => Or.inr listed
    | cons first rest ih =>
        intro r listed
        rcases ih _ listed with later | earlier
        · exact Or.inl (List.mem_cons_of_mem _ later)
        · rcases Assoc.mem_values_set earlier with rfl | older
          · exact Or.inl List.mem_cons_self
          · exact Or.inr older
  have ofBuild : ∀ types accelerators names, model ∈ (build types accelerators names).allTypes →
      model ∈ types := by
    intro types accelerators names listed
    obtain ⟨⟨key, other⟩, isEntry, rfl⟩ := List.mem_map.mp listed
    have found := (Assoc.get?_eq_some_iff (build_tables types accelerators names).2.2).mpr isEntry
    obtain ⟨other', listed', same⟩ := List.mem_map.mp (Assoc.mem_of_get?_ofList found)
    cases same
    exact listed'
  exact (goesOn bundled listed).imp_right (ofBuild _ _ _)

/-- The names of the types that are known from the start have a namespace. -/
theorem knownTypes_proper {model : TypeModel} (listed : model ∈ Bundled.knownTypes) :
    ProperName model.fullName ∧ ('.' : CodeUnit) ∈ model.fullName := by
  have checked : ∀ name ∈ Bundled.knownTypes.map (·.fullName), ((name.all fun u =>
      !Text.isSpace u && u != '[' && u != ']') && name.any (· == '.')) = true := by
    dsimp only [Bundled.knownTypes, Bundled.primitives, Bundled.values, Bundled.collections,
      Bundled.library, Bundled.automation, List.map_append, List.map_cons, List.map_nil,
      List.cons_append, List.nil_append]
    rw [Text.ofString_eq]
    refine List.forall_iff_forall_mem.mp ?_
    decide +kernel
  have here := checked _ (List.mem_map_of_mem listed)
  simp only [Bool.and_eq_true, List.all_eq_true, List.any_eq_true, Bool.not_eq_true', bne_iff_ne,
    beq_iff_eq, exists_eq_right] at here
  obtain ⟨units, dotted⟩ := here
  exact ⟨⟨List.ne_nil_of_mem dotted, Text.Unblank.trimmed fun u listed => (units u listed).1.1,
    fun listed => (units _ listed).1.2 rfl, fun listed => (units _ listed).2 rfl⟩, dotted⟩

theorem shelf_proper : ∀ model ∈ (Catalog.added [shelf]).allTypes,
    ProperName model.fullName ∧ ('.' : CodeUnit) ∈ model.fullName := by
  intro model listed
  rcases mem_allTypes_added listed with isShelf | known
  · obtain rfl := List.mem_singleton.mp isShelf
    have unblank : Text.Unblank shelf.fullName := List.forall_iff_forall_mem.mp (by decide)
    exact ⟨⟨by decide, unblank.trimmed, by decide, by decide⟩, by decide⟩
  · exact knownTypes_proper known

theorem shelf_registered : (Catalog.added [shelf]).Registered "Demo.Shelf" := by
  have isAdded : Catalog.added [shelf] = bundled.addType shelf := by
    rw [Catalog.added, List.foldl_cons, List.foldl_nil]
  have found : Assoc.get? (bundled.addType shelf).types (Text.lower shelf.fullName) = some shelf := by
    rw [addType, Assoc.get?_set, if_pos rfl]
  rw [isAdded]
  exact ⟨shelf, Assoc.mem_values_of_get? found, rfl⟩

theorem shelf_apart : ∀ model ∈ (Catalog.added [shelf]).allTypes,
    ∀ pair ∈ (Catalog.added [shelf]).accelerators, Text.lower model.fullName ≠ Text.lower pair.1 := by
  intro model listed pair isPair same
  rw [Catalog.added_standard] at isPair
  have isSign : Text.IsSign ('.' : CodeUnit).toNat := by decide
  have dotted := (Quoting.mem_lower_iff isSign _).mpr (shelf_proper model listed).2
  rw [same, Quoting.mem_lower_iff isSign] at dotted
  exact ((accelerators_proper isPair).2 _ dotted).2.2 rfl

/-- The name that is found for three suffixes stands for the type of one. -/
theorem shelves_of_shelves_lost :
    (∀ model ∈ (Catalog.added [shelf]).allTypes, ProperName model.fullName) ∧
      (Catalog.added [shelf]).resolveFullName "Demo.Shelf[][][]" = some "Demo.Shelf[][]" ∧
        (Catalog.added [shelf]).resolveFullName "Demo.Shelf[][]" = some "Demo.Shelf[]" ∧
          ("Demo.Shelf[]" : Text) ≠ "Demo.Shelf[][]" := by
  have proper := fun model listed => (shelf_proper model listed).1
  have lost := resolve_suffixed (tidy_added proper) shelf_registered
  exact ⟨proper, lost 1, lost 0, by decide⟩

theorem shelves_resolved_again :
    (Catalog.added [shelf]).resolveFullName "Demo.Shelf[][]" = some "Demo.Shelf[]" ∧
      Peels "Demo.Shelf[]" ∧
        (Catalog.added [shelf]).resolveFullName
            ((Catalog.added [shelf]).getDisplayName "Demo.Shelf[]") =
          (Catalog.added [shelf]).resolveFullName "Demo.Shelf[]" := by
  obtain ⟨again, registered, displayed⟩ :=
    resolved_names_again [shelf] fun model listed => (shelf_proper model listed).1
  obtain ⟨-, once, more⟩ := registered "Demo.Shelf" shelf_registered
  exact ⟨more 0, (again _ _ (more 0)).mp once,
    displayed shelf_apart "Demo.Shelf[]" "Demo.Shelf" shelf_registered (Or.inr once)⟩

end Registry

end TabCompletion
