import TabCompletion.Proofs.Types.Canonical

/-!
The elements of arrays. A name is a word, a word with arguments in brackets, or a name with an array
suffix. The suffix that is put behind a name peels off again and leaves that name, with arguments and with
other suffixes, except for a word with one suffix: its empty brackets are then read as an argument list
without arguments.
-/

namespace TabCompletion

namespace TypeName

/-- A name without arguments and suffixes, and without the arity of a generic definition. -/
structure Word (name : Text) : Prop where
  filled : name ≠ []
  units : ∀ u ∈ name, Text.isSpace u = false ∧ u ≠ ('[' : CodeUnit) ∧ u ≠ (']' : CodeUnit) ∧
    u ≠ (',' : CodeUnit) ∧ u ≠ ('\x60' : CodeUnit)

instance (name : Text) : Decidable (Word name) :=
  decidable_of_iff (name ≠ [] ∧ name.Forall fun u => Text.isSpace u = false ∧ u ≠ ('[' : CodeUnit) ∧
      u ≠ (']' : CodeUnit) ∧ u ≠ (',' : CodeUnit) ∧ u ≠ ('\x60' : CodeUnit))
    ⟨fun ⟨filled, units⟩ => ⟨filled, List.forall_iff_forall_mem.mp units⟩,
      fun ⟨filled, units⟩ => ⟨filled, List.forall_iff_forall_mem.mpr units⟩⟩

/-- The names that can be written for types. -/
inductive Written : Text → Prop
  | word {name : Text} (isWord : Word name) : Written name
  | generic {name : Text} {arguments : List Text} (isWord : Word name) (filled : arguments ≠ [])
      (written : ∀ argument ∈ arguments, Written argument) :
      Written (name ++ ("[" ++ (Text.join "," arguments ++ "]")))
  | array {name : Text} (written : Written name) : Written (name ++ "[]")

theorem Word.bracketless {name : Text} (isWord : Word name) : ('[' : CodeUnit) ∉ name :=
  fun listed => (isWord.units _ listed).2.1 rfl

theorem Word.plain {name : Text} (isWord : Word name) :
    ∀ u ∈ name, u ≠ ('[' : CodeUnit) ∧ u ≠ (']' : CodeUnit) ∧ u ≠ (',' : CodeUnit) := fun u listed =>
  have ⟨_, opens, closes, parts, _⟩ := isWord.units u listed
  ⟨opens, closes, parts⟩

theorem Word.level {name : Text} (isWord : Word name) (depth : Int) :
    depthAfter depth name = depth ∧ Unparted depth name := plain_depth depth isWord.plain

theorem join_level {pieces : List Text} {depth : Int} (inside : 0 < depth)
    (level : ∀ piece ∈ pieces, depthAfter depth piece = depth ∧ Unparted depth piece) :
    depthAfter depth (Text.join "," pieces) = depth ∧ Unparted depth (Text.join "," pieces) := by
  -- A comma parts arguments outside of brackets only.
  have comma : depthAfter depth "," = depth ∧ Unparted depth "," := by
    refine ⟨rfl, ?_, trivial⟩
    rw [beq_eq_false_iff_ne.mpr (by omega : depth ≠ 0), Bool.and_false]
  refine Text.join_closed ⟨rfl, trivial⟩ comma (fun {s t} first second => ?_) level
  rw [depthAfter_append, unparted_append, first.1]
  exact ⟨second.1, first.2, second.2⟩

/-- A written name closes the brackets that it opens, and no comma of it stands outside of them. -/
theorem Written.level {t : Text} (written : Written t) {depth : Int} (atLeast : 0 ≤ depth) :
    depthAfter depth t = depth ∧ Unparted depth t := by
  have opened : ∀ depth, depthAfter depth "[" = depth + 1 ∧ Unparted depth "[" :=
    fun _ => ⟨rfl, trivial⟩
  have closed : ∀ depth, depthAfter (depth + 1) "]" = depth ∧ Unparted (depth + 1) "]" :=
    fun depth => ⟨Int.add_sub_cancel depth 1, trivial⟩
  induction written generalizing depth with
  | word isWord => exact isWord.level depth
  | generic isWord filled written ih =>
      have inner := @join_level _ (depth + 1) (by omega) fun piece listed => ih piece listed (by omega)
      simp only [depthAfter_append, unparted_append, (isWord.level depth).1, (opened depth).1, inner.1]
      exact ⟨(closed depth).1, (isWord.level depth).2, (opened depth).2, inner.2, (closed depth).2⟩
  | array written ih =>
      have suffix : depthAfter depth "[]" = depth + 1 - 1 := rfl
      rw [depthAfter_append, unparted_append, (ih atLeast).1, suffix]
      exact ⟨Int.add_sub_cancel depth 1, (ih atLeast).2, trivial⟩

theorem Written.filled {t : Text} (written : Written t) : t ≠ [] := by
  cases written with
  | word isWord => exact isWord.filled
  | generic isWord filled written =>
      exact fun none => isWord.filled (List.append_eq_nil_iff.mp none).1
  | array written =>
      exact fun none => List.cons_ne_nil _ _ (List.append_eq_nil_iff.mp none).2

theorem Written.unblank {t : Text} (written : Written t) : Text.Unblank t := by
  have opened : Text.Unblank "[" := List.forall_iff_forall_mem.mp (by decide)
  have closed : Text.Unblank "]" := List.forall_iff_forall_mem.mp (by decide)
  have suffix : Text.Unblank "[]" := List.forall_iff_forall_mem.mp (by decide)
  have comma : Text.Unblank "," := List.forall_iff_forall_mem.mp (by decide)
  induction written with
  | word isWord => exact fun u listed => (isWord.units u listed).1
  | generic isWord filled written ih =>
      have inner : Text.Unblank (Text.join "," _) := Text.join_closed (fun _ listed => nomatch listed)
        comma (fun first second => List.forall_mem_append.mpr ⟨first, second⟩) ih
      exact List.forall_mem_append.mpr ⟨fun u listed => (isWord.units u listed).1,
        List.forall_mem_append.mpr ⟨opened, List.forall_mem_append.mpr ⟨inner, closed⟩⟩⟩
  | array written ih => exact List.forall_mem_append.mpr ⟨ih, suffix⟩

/-- A written name is a word with some suffixes, or a word with arguments and some suffixes. -/
theorem Written.core {t : Text} (written : Written t) : ∃ count,
    (∃ name, Word name ∧ t = suffixed name count) ∨
      ∃ name first last, Word name ∧ (∀ argument ∈ first ++ [last], Written argument) ∧
        t = suffixed (name ++ ("[" ++ (Text.join "," (first ++ [last]) ++ "]"))) count := by
  induction written with
  | word isWord => exact ⟨0, Or.inl ⟨_, isWord, rfl⟩⟩
  | @generic name arguments isWord filled written ih =>
      obtain ⟨first, last, rfl⟩ := List.eq_nil_or_concat arguments |>.resolve_left filled
      rw [List.concat_eq_append] at written ⊢
      exact ⟨0, Or.inr ⟨name, first, last, isWord, written, rfl⟩⟩
  | array written ih =>
      obtain ⟨count, ⟨name, isWord, rfl⟩ | ⟨name, first, last, isWord, arguments, rfl⟩⟩ := ih
      · exact ⟨count + 1, Or.inl ⟨name, isWord, rfl⟩⟩
      · exact ⟨count + 1, Or.inr ⟨name, first, last, isWord, arguments, rfl⟩⟩

theorem parted_written {arguments : List Text} (written : ∀ argument ∈ arguments, Written argument) :
    Parted arguments :=
  parted_of_level fun argument listed => (written argument listed).level (Int.le_refl 0)

/-- A written name is read as it is written, unless it is a word with one suffix. -/
theorem respelled_written {t : Text} (written : Written t) :
    respelled t = t ∨ ∃ name, Word name ∧ t = name ++ "[]" := by
  obtain ⟨count, ⟨name, isWord, rfl⟩ | ⟨name, first, last, isWord, arguments, rfl⟩⟩ := written.core
  · -- One suffix makes empty brackets; between two there is something that reads as an argument.
    match count with
    | 0 => exact Or.inl (respelled_bracketless isWord.bracketless)
    | 1 => exact Or.inr ⟨name, isWord, rfl⟩
    | count + 2 => exact Or.inl (respelled_suffixed_bracketless isWord.bracketless count)
  · exact Or.inl (respelled_suffixed isWord.bracketless (parted_written arguments)
      (fun argument listed => ⟨(arguments argument listed).filled, (arguments argument listed).unblank⟩) count)

end TypeName

namespace Registry

open TabCompletion.TypeName

def elementName? (r : Registry) (name : Text) : Option Text := (r.getType name).bind (·.elementType)

theorem led_written {t : Text} (written : Written t) : Text.Led t := written.unblank.trimmed.1

theorem elementName?_array (r : Registry) {t : Text} (written : Written t) :
    r.elementName? (t ++ "[]") = some (r.fullName (respelled t)) := by
  rw [elementName?, getType_array r (led_written written).trim_suffixed]
  rfl

theorem word_suffix_lost (r : Registry) {name : Text} (isWord : Word name) :
    r.elementName? (name ++ "[]" ++ "[]") = some (r.fullName name) ∧
      r.getDisplayName (name ++ "[]" ++ "[]") = r.getDisplayName (name ++ "[]") := by
  have written : Written name := .word isWord
  have once := respelled_array isWord.bracketless
  rw [suffixed, suffixed] at once
  rw [elementName?_array r written.array, display_array r (led_written written.array).trim_suffixed,
    display_array r (led_written written).trim_suffixed, once, respelled_bracketless isWord.bracketless]
  exact ⟨rfl, rfl⟩

/-- The suffix of an array is one of its type and of its short form, and the elements are those of the
name in front of it, unless that name is a word with one suffix itself: then one suffix is lost. -/
theorem written_array_elements (r : Registry) {t : Text} (written : Written t) :
    ((r.elementName? (t ++ "[]") = some (r.fullName t) ∧
        r.getDisplayName (t ++ "[]") = r.getDisplayName t ++ "[]") ↔
      ¬∃ name, Word name ∧ t = name ++ "[]") ∧
    ∀ name, Word name → t = name ++ "[]" →
      r.elementName? (t ++ "[]") = some (r.fullName name) ∧
        r.getDisplayName (t ++ "[]") = r.getDisplayName t := by
  have lost : ∀ name, Word name → t = name ++ "[]" →
      r.elementName? (t ++ "[]") = some (r.fullName name) ∧
        r.getDisplayName (t ++ "[]") = r.getDisplayName t := by
    rintro name isWord rfl
    exact word_suffix_lost r isWord
  refine ⟨⟨?_, fun others => ?_⟩, lost⟩
  · rintro ⟨-, displayed⟩ ⟨name, isWord, isArray⟩
    rw [(lost name isWord isArray).2] at displayed
    have longer := congrArg List.length displayed
    rw [List.length_append] at longer
    exact absurd longer (by simp [Text.ofString, Text.unitsOfPoint])
  · have whole := (respelled_written written).resolve_right others
    rw [elementName?_array r written, display_array r (led_written written).trim_suffixed, whole]
    exact ⟨rfl, rfl⟩

/-- The arrays of arrays of shelves are taken for arrays of shelves. -/
theorem shelves_in_shelves_flattened :
    (∀ model ∈ (Catalog.added [shelf]).allTypes, ProperName model.fullName) ∧
      Written "Demo.Shelf[]" ∧
        (Catalog.added [shelf]).resolveFullName "Demo.Shelf[]" = some "Demo.Shelf[]" ∧
          (Catalog.added [shelf]).elementName? "Demo.Shelf[][]" = some "Demo.Shelf" ∧
            (Catalog.added [shelf]).getDisplayName "Demo.Shelf[][]" =
              (Catalog.added [shelf]).getDisplayName "Demo.Shelf[]" := by
  have proper := fun model listed => (shelf_proper model listed).1
  have isWord : Word "Demo.Shelf" := by decide
  obtain ⟨element, displayed⟩ := word_suffix_lost (Catalog.added [shelf]) isWord
  rw [fullName_registered (tidy_added proper) shelf_registered] at element
  exact ⟨proper, Written.array (.word isWord),
    resolve_suffixed_once (tidy_added proper) shelf_registered, element, displayed⟩

/-- An array of tables of arrays has these tables as its elements. -/
theorem tables_of_arrays_kept :
    (Catalog.added [shelf]).elementName? "Demo.Table[int,Demo.Shelf[]][][]" =
        some ((Catalog.added [shelf]).fullName "Demo.Table[int,Demo.Shelf[]][]") ∧
      (Catalog.added [shelf]).getDisplayName "Demo.Table[int,Demo.Shelf[]][][]" =
        (Catalog.added [shelf]).getDisplayName "Demo.Table[int,Demo.Shelf[]][]" ++ "[]" := by
  have table : Word "Demo.Table" := by decide
  have number : Word "int" := by decide
  have shelf : Word "Demo.Shelf" := by decide
  have arguments : ∀ argument ∈ (["int", "Demo.Shelf" ++ "[]"] : List Text), Written argument := by
    intro argument listed
    simp only [List.mem_cons, List.not_mem_nil, or_false] at listed
    rcases listed with rfl | rfl
    · exact .word number
    · exact .array (.word shelf)
  have written : Written "Demo.Table[int,Demo.Shelf[]][]" :=
    .array (.generic table (List.cons_ne_nil _ _) arguments)
  refine (written_array_elements (Catalog.added [Registry.shelf]) written).1.mpr ?_
  rintro ⟨name, isWord, same⟩
  have opens : ('[' : CodeUnit) ∈ name := by
    have front : Text.ofString "Demo.Table[int,Demo.Shelf[]]" = name := List.append_cancel_right same
    rw [← front]
    decide
  exact isWord.bracketless opens

end Registry

end TabCompletion
