import TabCompletion.Proofs.Assoc

/-!
The order of texts and what sorting makes of a list of names. `SortedFrom` and `DistinctFrom` say
what a sorted listing is without saying how it is made; either determines the listing.
-/

namespace TabCompletion

namespace Text

theorem compare_self (t : Text) : compare t t = .eq := by
  induction t with
  | nil => rfl
  | cons u rest ih => simp [compare, ih]

theorem compare_eq_iff (s t : Text) : compare s t = .eq ↔ s = t := by
  induction s generalizing t with
  | nil => cases t <;> simp [compare]
  | cons a s ih =>
      cases t with
      | nil => simp [compare]
      | cons b t =>
          simp only [compare]
          split
          · rename_i less
            simp [UInt16.ne_of_lt less]
          · split
            · rename_i more
              simp [Ne.symm (UInt16.ne_of_lt more)]
            · rename_i notLess notMore
              have same : a = b :=
                UInt16.le_antisymm (UInt16.not_lt.mp notMore) (UInt16.not_lt.mp notLess)
              simp [ih, same]

theorem compare_swap (s t : Text) : compare t s = (compare s t).swap := by
  induction s generalizing t with
  | nil => cases t <;> rfl
  | cons a s ih =>
      cases t with
      | nil => rfl
      | cons b t =>
          simp only [compare, ih]
          by_cases less : a < b
          · simp [less, UInt16.lt_asymm less]
          · by_cases more : b < a <;> simp [less, more]

theorem compare_trans {s t r : Text} (first : compare s t ≠ .gt) (second : compare t r ≠ .gt) :
    compare s r ≠ .gt := by
  induction s generalizing t r with
  | nil => cases r <;> simp [compare]
  | cons a s ih =>
      cases t with
      | nil => simp [compare] at first
      | cons b t =>
          cases r with
          | nil => simp [compare] at second
          | cons c r =>
              simp only [compare] at first second ⊢
              -- The heads decide unless all three are the same.
              by_cases less : a < b
              · by_cases next : c < b
                · simp [next, UInt16.lt_asymm next] at second
                · simp [UInt16.lt_of_lt_of_le less (UInt16.not_lt.mp next)]
              · by_cases more : b < a
                · simp [less, more] at first
                · have same : a = b :=
                    UInt16.le_antisymm (UInt16.not_lt.mp more) (UInt16.not_lt.mp less)
                  subst same
                  by_cases next : a < c
                  · simp [next]
                  · by_cases back : c < a
                    · simp [next, back] at second
                    · simp only [if_neg less, if_neg next, if_neg back] at first second ⊢
                      exact ih first second

end Text

/-! Sorted listings. -/

/-- Up to letter case the first text does not come after the second. -/
def NotAfter (a b : Text) : Prop := Text.compare (Text.lower a) (Text.lower b) ≠ .gt

/-- The names in the order of their lower-case forms; names that differ in case only stay in the
order in which they came. -/
structure SortedFrom (names listed : List Text) : Prop where
  perm : listed.Perm names
  ordered : listed.Pairwise NotAfter
  stable : ∀ key, listed.filter (Text.lower · = key) = names.filter (Text.lower · = key)

/-- The names up to letter case, each once and in the order of their lower-case forms; of names that
differ in case only the last one is taken. -/
structure DistinctFrom (names listed : List Text) : Prop where
  ordered : listed.Pairwise fun a b => Text.compare (Text.lower a) (Text.lower b) = .lt
  covers : ∀ name ∈ names, ∃ other ∈ listed, Text.lower other = Text.lower name
  last : ∀ name ∈ listed, (names.filter (Text.lower · = Text.lower name)).getLast? = some name

section Stable

variable {α : Type} (key : α → Text)

theorem lowered_trans (a b c : α)
    (first : (Text.compare (Text.lower (key a)) (Text.lower (key b)) != .gt) = true)
    (second : (Text.compare (Text.lower (key b)) (Text.lower (key c)) != .gt) = true) :
    (Text.compare (Text.lower (key a)) (Text.lower (key c)) != .gt) = true :=
  bne_iff_ne.mpr (Text.compare_trans (bne_iff_ne.mp first) (bne_iff_ne.mp second))

theorem lowered_total (a b : α) :
    ((Text.compare (Text.lower (key a)) (Text.lower (key b)) != .gt) ||
      (Text.compare (Text.lower (key b)) (Text.lower (key a)) != .gt)) = true := by
  rw [Text.compare_swap (Text.lower (key a)) (Text.lower (key b))]
  cases Text.compare (Text.lower (key a)) (Text.lower (key b)) <;> rfl

theorem sortIgnoringCase_eq (items : List α) :
    sortIgnoringCase key items =
      items.mergeSort fun a b => Text.compare (Text.lower (key a)) (Text.lower (key b)) != .gt := by
  have keyed : ∀ a ∈ items, ∀ b ∈ items,
      (Text.compare (Text.lower (key a)) (Text.lower (key b)) != .gt) =
        (Text.compare (Text.lower (key a), a).1 (Text.lower (key b), b).1 != .gt) := fun _ _ _ _ => rfl
  rw [sortIgnoringCase, stableSort, ← List.map_mergeSort keyed, List.map_map]
  exact List.map_id _

/-- Items whose keys differ in letter case only stay in the order in which they came. -/
theorem sortIgnoringCase_stable (items : List α) (lowered : Text) :
    (sortIgnoringCase key items).filter (fun item => Text.lower (key item) = lowered) =
      items.filter fun item => Text.lower (key item) = lowered := by
  rw [sortIgnoringCase_eq]
  -- Such items are in order as they stand, so sorting keeps them so.
  have inOrder : (items.filter fun item => Text.lower (key item) = lowered).Pairwise fun a b =>
      (Text.compare (Text.lower (key a)) (Text.lower (key b)) != .gt) = true := by
    apply List.pairwise_of_forall_mem_list
    intro a isA b isB
    have sameA : Text.lower (key a) = lowered := by simpa using (List.mem_filter.mp isA).2
    have sameB : Text.lower (key b) = lowered := by simpa using (List.mem_filter.mp isB).2
    simp [sameA, sameB, Text.compare_self]
  have kept := (List.sublist_mergeSort (lowered_trans key) (lowered_total key) inOrder
    List.filter_sublist).filter fun item => Text.lower (key item) = lowered
  rw [List.filter_filter] at kept
  simp only [Bool.and_self] at kept
  have size := ((List.mergeSort_perm items fun a b =>
    Text.compare (Text.lower (key a)) (Text.lower (key b)) != .gt).filter
      fun item => Text.lower (key item) = lowered).length_eq
  exact (kept.eq_of_length size.symm).symm

end Stable

theorem sortIgnoringCase_sortedFrom (names : List Text) :
    SortedFrom names (sortIgnoringCase id names) where
  perm := sortIgnoringCase_eq id names ▸ List.mergeSort_perm _ _
  ordered := by
    rw [sortIgnoringCase_eq]
    exact (List.pairwise_mergeSort (lowered_trans id) (lowered_total id) names).imp
      fun le => by simpa [NotAfter] using le
  stable := sortIgnoringCase_stable id names

theorem NotAfter.lt_of_ne {a b : Text} (notAfter : NotAfter a b)
    (differ : Text.lower a ≠ Text.lower b) : Text.compare (Text.lower a) (Text.lower b) = .lt := by
  cases order : Text.compare (Text.lower a) (Text.lower b) with
  | lt => rfl
  | eq => exact absurd ((Text.compare_eq_iff _ _).mp order) differ
  | gt => exact absurd order notAfter

section Items

variable {α : Type} (key : α → Text) (items : List α)

theorem sortIgnoringCase_perm : (sortIgnoringCase key items).Perm items := by
  have sorted := (List.mergeSort_perm (items.map fun item => (Text.lower (key item), item))
    fun a b => Text.compare a.1 b.1 != .gt).map Prod.snd
  rwa [List.map_map, Function.comp_def, List.map_id'] at sorted

theorem sortIgnoringCase_ordered :
    (sortIgnoringCase key items).Pairwise fun a b => NotAfter (key a) (key b) := by
  have keys : (sortIgnoringCase key items).map key = sortIgnoringCase id (items.map key) :=
    (sortIgnoringCase_map key id items).symm
  exact List.pairwise_map.mp (keys ▸ (sortIgnoringCase_sortedFrom (items.map key)).ordered)

/-- Items whose keys differ in more than letter case are sorted strictly. -/
theorem sortIgnoringCase_strict (distinct : (items.map fun item => Text.lower (key item)).Nodup) :
    (sortIgnoringCase key items).Pairwise fun a b =>
      Text.compare (Text.lower (key a)) (Text.lower (key b)) = .lt := by
  have apart : (sortIgnoringCase key items).Pairwise fun a b =>
      Text.lower (key a) ≠ Text.lower (key b) :=
    List.pairwise_map.mp (((sortIgnoringCase_perm key items).map fun item =>
      Text.lower (key item)).nodup_iff.mpr distinct)
  exact ((sortIgnoringCase_ordered key items).and apart).imp fun both => both.1.lt_of_ne both.2

end Items

/-! Names by their lower-case forms. -/

/-- The table of some names, each under its lower-case form. -/
def namesByCase (table : Assoc Text) (names : List Text) : Assoc Text :=
  names.foldl (fun table name => Assoc.set table (Text.lower name) name) table

/-- Every name stands under its lower-case form, and no key is there twice. -/
structure KeyedByCase (table : Assoc Text) : Prop where
  distinct : (table.map Prod.fst).Nodup
  keyed : ∀ entry ∈ table, entry.1 = Text.lower entry.2

namespace Assoc

variable {α : Type}

theorem mem_set {table : Assoc α} {key : Text} {value : α} {entry : Text × α}
    (listed : entry ∈ set table key value) : entry = (key, value) ∨ entry ∈ table := by
  induction table with
  | nil => exact Or.inl (List.mem_singleton.mp listed)
  | cons first rest ih =>
      obtain ⟨other, old⟩ := first
      rw [set] at listed
      split at listed
      · rename_i same
        rcases List.mem_cons.mp listed with isNew | later
        · exact Or.inl (by rw [isNew, beq_iff_eq.mp same])
        · exact Or.inr (List.mem_cons_of_mem _ later)
      · rcases List.mem_cons.mp listed with isOld | later
        · exact Or.inr (isOld ▸ List.mem_cons_self)
        · rcases ih later with isNew | older
          · exact Or.inl isNew
          · exact Or.inr (List.mem_cons_of_mem _ older)

theorem keys_set_nodup {table : Assoc α} (distinct : (table.map Prod.fst).Nodup) (key : Text)
    (value : α) : ((set table key value).map Prod.fst).Nodup := by
  induction table with
  | nil => simp [set]
  | cons first rest ih =>
      obtain ⟨other, old⟩ := first
      simp only [List.map_cons, List.nodup_cons] at distinct
      rw [set]
      split
      · simpa using distinct
      · rename_i different
        simp only [List.map_cons, List.nodup_cons]
        refine ⟨fun again => ?_, ih distinct.2⟩
        obtain ⟨entry, listed, same⟩ := List.mem_map.mp again
        rcases mem_set listed with isNew | older
        · rw [isNew] at same
          exact different (beq_iff_eq.mpr same.symm)
        · exact distinct.1 (List.mem_map.mpr ⟨entry, older, same⟩)

theorem get?_eq_some_iff {table : Assoc α} (distinct : (table.map Prod.fst).Nodup) {key : Text}
    {value : α} : get? table key = some value ↔ (key, value) ∈ table := by
  induction table with
  | nil => simp [get?]
  | cons first rest ih =>
      obtain ⟨other, old⟩ := first
      simp only [List.map_cons, List.nodup_cons] at distinct
      rw [get?_cons, List.mem_cons, Prod.mk.injEq]
      by_cases same : key = other
      · subst same
        have absent : (key, value) ∉ rest := fun listed =>
          distinct.1 (List.mem_map.mpr ⟨_, listed, rfl⟩)
        simp [absent, eq_comm]
      · simp [same, ih distinct.2]

theorem keys_ofList_nodup (entries : List (Text × α)) : ((ofList entries).map Prod.fst).Nodup := by
  have goesOn : ∀ table : Assoc α, (table.map Prod.fst).Nodup →
      ((entries.foldl (fun table entry => set table entry.1 entry.2) table).map Prod.fst).Nodup := by
    induction entries with
    | nil => exact fun _ distinct => distinct
    | cons entry rest ih => exact fun _ distinct => ih _ (keys_set_nodup distinct entry.1 entry.2)
  exact goesOn [] List.nodup_nil

/-- Entries of distinct keys are all found again. -/
theorem get?_ofList_of_mem {entries : List (Text × α)} (distinct : (entries.map Prod.fst).Nodup)
    {key : Text} {value : α} (listed : (key, value) ∈ entries) :
    get? (ofList entries) key = some value := by
  have kept : ∀ (after : List (Text × α)) (table : Assoc α), key ∉ after.map Prod.fst →
      get? table key = some value →
      get? (after.foldl (fun table entry => set table entry.1 entry.2) table) key = some value := by
    intro after
    induction after with
    | nil => exact fun _ _ found => found
    | cons entry rest ih =>
        intro table absent found
        rw [List.map_cons, List.mem_cons, not_or] at absent
        exact ih _ absent.2 (by rw [get?_set, if_neg absent.1, found])
  obtain ⟨before, after, rfl⟩ := List.append_of_mem listed
  rw [List.map_append, List.map_cons] at distinct
  have absent : key ∉ after.map Prod.fst :=
    (List.nodup_cons.mp (List.nodup_append.mp distinct).2.1).1
  rw [ofList, List.foldl_append, List.foldl_cons]
  exact kept after _ absent (by rw [get?_set, if_pos rfl])

end Assoc

theorem namesByCase_keyed (names : List Text) {table : Assoc Text} (keyed : KeyedByCase table) :
    KeyedByCase (namesByCase table names) := by
  induction names generalizing table with
  | nil => exact keyed
  | cons name rest ih =>
      apply ih
      constructor
      · exact Assoc.keys_set_nodup keyed.distinct _ _
      · intro entry listed
        rcases Assoc.mem_set listed with isNew | older
        · rw [isNew]
        · exact keyed.keyed entry older

theorem get?_namesByCase (names : List Text) (table : Assoc Text) (key : Text) :
    Assoc.get? (namesByCase table names) key =
      ((names.filter (Text.lower · = key)).getLast?).or (Assoc.get? table key) := by
  induction names generalizing table with
  | nil => rfl
  | cons name rest ih =>
      have step : namesByCase table (name :: rest) =
          namesByCase (Assoc.set table (Text.lower name) name) rest := rfl
      rw [step, ih, Assoc.get?_set]
      by_cases same : Text.lower name = key
      · subst same
        cases found : (rest.filter (Text.lower · = Text.lower name)).getLast? <;>
          simp [List.getLast?_cons, found]
      · simp [same, Ne.symm same]

theorem keyedByCase (names : List Text) : KeyedByCase (namesByCase [] names) :=
  namesByCase_keyed names ⟨List.nodup_nil, fun _ listed => absurd listed List.not_mem_nil⟩

theorem mem_values_namesByCase (names : List Text) (name : Text) :
    name ∈ Assoc.values (namesByCase [] names) ↔
      (names.filter (Text.lower · = Text.lower name)).getLast? = some name := by
  have keyed := keyedByCase names
  have found := get?_namesByCase names [] (Text.lower name)
  have empty : Assoc.get? ([] : Assoc Text) (Text.lower name) = none := rfl
  rw [empty, Option.or_none] at found
  rw [← found, Assoc.get?_eq_some_iff keyed.distinct, Assoc.values]
  constructor
  · intro listed
    obtain ⟨entry, isEntry, rfl⟩ := List.mem_map.mp listed
    rw [← keyed.keyed entry isEntry]
    exact isEntry
  · exact fun isEntry => List.mem_map.mpr ⟨_, isEntry, rfl⟩

theorem lower_values_nodup (names : List Text) :
    ((Assoc.values (namesByCase [] names)).map Text.lower).Nodup := by
  have keyed := keyedByCase names
  have keys : (Assoc.values (namesByCase [] names)).map Text.lower =
      (namesByCase [] names).map Prod.fst := by
    rw [Assoc.values, List.map_map]
    exact List.map_congr_left fun entry isEntry => (keyed.keyed entry isEntry).symm
  rw [keys]
  exact keyed.distinct

theorem sorted_namesByCase_distinctFrom (names : List Text) :
    DistinctFrom names (sortIgnoringCase id (Assoc.values (namesByCase [] names))) := by
  have sorted := sortIgnoringCase_sortedFrom (Assoc.values (namesByCase [] names))
  constructor
  · -- No two names share a lower-case form, so what is in order is strictly so.
    have different : (sortIgnoringCase id (Assoc.values (namesByCase [] names))).Pairwise
        fun a b => Text.lower a ≠ Text.lower b :=
      List.pairwise_map.mp ((sorted.perm.map Text.lower).nodup_iff.mpr (lower_values_nodup names))
    exact (sorted.ordered.and different).imp fun both => both.1.lt_of_ne both.2
  · intro name isName
    obtain ⟨other, isLast⟩ : ∃ other,
        (names.filter (Text.lower · = Text.lower name)).getLast? = some other := by
      apply Option.isSome_iff_exists.mp
      rw [List.getLast?_isSome]
      exact List.ne_nil_of_mem (List.mem_filter.mpr ⟨isName, by simp⟩)
    have same : Text.lower other = Text.lower name := by
      simpa using (List.mem_filter.mp (List.mem_of_getLast? isLast)).2
    refine ⟨other, sorted.perm.mem_iff.mpr ((mem_values_namesByCase names other).mpr ?_), same⟩
    rw [same]
    exact isLast
  · intro name isName
    exact (mem_values_namesByCase names name).mp (sorted.perm.mem_iff.mp isName)

end TabCompletion
