import TabCompletion.Session.Basic
import TabCompletion.Sorting

/-!
Looking up in tables and sorting: what a table holds after an entry was set, and maps over the
values of a table or over the items that are sorted.
-/

namespace TabCompletion

/-- Applies a function to the values of a table. -/
def Assoc.mapValues {α β : Type} (f : α → β) (table : Assoc α) : Assoc β :=
  table.map fun (key, value) => (key, f value)

namespace Assoc

variable {α β : Type}

theorem get?_cons (first other : Text) (value : α) (rest : Assoc α) :
    get? ((first, value) :: rest) other = if other = first then some value else get? rest other := by
  rw [get?, List.lookup_cons]
  by_cases same : other = first
  · rw [if_pos same, beq_iff_eq.mpr same]
  · rw [if_neg same, beq_eq_false_iff_ne.mpr same]
    rfl

theorem get?_set (table : Assoc α) (key other : Text) (value : α) :
    get? (set table key value) other = if other = key then some value else get? table other := by
  induction table with
  | nil => exact get?_cons key other value []
  | cons entry rest ih =>
      obtain ⟨first, old⟩ := entry
      rw [set, get?_cons]
      by_cases isFirst : first = key
      · rw [if_pos (beq_iff_eq.mpr isFirst), get?_cons, isFirst]
        split <;> rfl
      · rw [if_neg (fun same => isFirst (beq_iff_eq.mp same)), get?_cons, ih]
        by_cases isOther : other = first
        · rw [if_pos isOther, if_pos isOther, if_neg (isOther ▸ isFirst)]
        · rw [if_neg isOther, if_neg isOther]

theorem mem_values_of_get? {table : Assoc α} {key : Text} {value : α}
    (found : get? table key = some value) : value ∈ values table := by
  obtain ⟨before, after, split, _⟩ := List.lookup_eq_some_iff.mp found
  rw [split]
  simp [values]

/-- What a table holds was among the entries that it was made of. -/
theorem mem_of_get?_ofList {entries : List (Text × α)} {key : Text} {value : α}
    (found : get? (ofList entries) key = some value) : (key, value) ∈ entries := by
  have goesOn : ∀ table : Assoc α,
      get? (entries.foldl (fun table entry => set table entry.1 entry.2) table) key = some value →
      get? table key = some value ∨ (key, value) ∈ entries := by
    clear found
    induction entries with
    | nil => exact fun table found => Or.inl found
    | cons entry rest ih =>
        intro table found
        rcases ih _ found with earlier | later
        · rw [get?_set] at earlier
          split at earlier
          · rename_i isKey
            cases earlier
            exact Or.inr (isKey ▸ List.mem_cons_self)
          · exact Or.inl earlier
        · exact Or.inr (List.mem_cons_of_mem _ later)
  rcases goesOn [] found with absent | listed
  · cases absent
  · exact listed

theorem mem_values_set {table : Assoc α} {key : Text} {value other : α}
    (listed : other ∈ values (set table key value)) : other = value ∨ other ∈ values table := by
  induction table with
  | nil => exact Or.inl (List.mem_singleton.mp listed)
  | cons entry rest ih =>
      rw [set] at listed
      split at listed
      · rcases List.mem_cons.mp listed with isValue | later
        · exact Or.inl isValue
        · exact Or.inr (List.mem_cons_of_mem _ later)
      · rcases List.mem_cons.mp listed with isOld | later
        · exact Or.inr (isOld ▸ List.mem_cons_self)
        · rcases ih later with isValue | older
          · exact Or.inl isValue
          · exact Or.inr (List.mem_cons_of_mem _ older)

variable (f : α → β)

theorem get?_mapValues (table : Assoc α) (key : Text) :
    get? (mapValues f table) key = (get? table key).map f := by
  induction table with
  | nil => rfl
  | cons entry rest ih =>
      obtain ⟨other, value⟩ := entry
      change List.lookup key ((other, f value) :: mapValues f rest) = _
      rw [get?, List.lookup_cons, List.lookup_cons]
      cases key == other with
      | true => rfl
      | false => exact ih

theorem set_mapValues (table : Assoc α) (key : Text) (value : α) :
    set (mapValues f table) key (f value) = mapValues f (set table key value) := by
  induction table with
  | nil => rfl
  | cons entry rest ih =>
      obtain ⟨other, old⟩ := entry
      change set ((other, f old) :: mapValues f rest) key (f value) = _
      rw [set, set]
      split
      · rfl
      · rw [ih]
        rfl

theorem ofList_mapValues (entries : List (Text × α)) :
    ofList (mapValues f entries) = mapValues f (ofList entries) := by
  have goesOn : ∀ table : Assoc α,
      (mapValues f entries).foldl (fun table (key, value) => set table key value)
        (mapValues f table) =
      mapValues f (entries.foldl (fun table (key, value) => set table key value) table) := by
    induction entries with
    | nil => exact fun table => rfl
    | cons entry rest ih =>
        intro table
        obtain ⟨key, value⟩ := entry
        change List.foldl _ (set (mapValues f table) key (f value)) (mapValues f rest) = _
        rw [set_mapValues]
        exact ih (set table key value)
  exact goesOn []

end Assoc

theorem lowerKeys_mapValues {α β : Type} (f : α → β) (table : Assoc α) :
    lowerKeys (Assoc.mapValues f table) = Assoc.mapValues f (lowerKeys table) := by
  rw [lowerKeys, lowerKeys, ← Assoc.ofList_mapValues]
  simp only [Assoc.mapValues, List.map_map, Function.comp_def]

/-! Sorting. -/

theorem sortIgnoringCase_nil {α : Type} (key : α → Text) : sortIgnoringCase key [] = [] := by
  simp [sortIgnoringCase, stableSort]

theorem sortIgnoringCase_map {α β : Type} (f : α → β) (key : β → Text) (items : List α) :
    sortIgnoringCase key (items.map f) =
      (sortIgnoringCase (fun item => key (f item)) items).map f := by
  let keyed := items.map fun item => (Text.lower (key (f item)), item)
  have moved : (items.map f).map (fun item => (Text.lower (key item), item)) =
      keyed.map fun (lowered, item) => (lowered, f item) := by
    simp only [keyed, List.map_map, Function.comp_def]
  have sorted : stableSort Prod.fst (keyed.map fun (lowered, item) => (lowered, f item)) =
      (stableSort Prod.fst keyed).map fun (lowered, item) => (lowered, f item) := by
    symm
    exact List.map_mergeSort fun _ _ _ _ => rfl
  rw [sortIgnoringCase, moved, sorted, List.map_map, sortIgnoringCase, List.map_map]
  rfl

end TabCompletion
