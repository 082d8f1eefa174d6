import TabCompletion.Proofs.Sorting
import TabCompletion.Proofs.Text.Lowering
import TabCompletion.Types.Catalog

/-!
Filling a catalog. A catalog is filled offer by offer, each a key and a descriptor for it. Buckets
stay in order, an entry once made keeps its key and its descriptors, and what an entry holds was
offered under its key, letter case apart.
-/

namespace TabCompletion.Catalog

/-! One bucket. -/

section Buckets

def bucket (c : Catalog) (n : Nat) : Assoc CatalogEntry := (c.buckets[n]?).getD []

/-- The entry of a key, in any letter case. -/
def find? (c : Catalog) (key : Text) : Option CatalogEntry :=
  Assoc.get? (c.bucket (countDots key)) (Text.lower key)

theorem countDots_lowerAfter (before : List Nat) (t : Text) :
    countDots (Text.lowerAfter before t) = countDots t := by
  have isSign : Text.IsSign ('.' : CodeUnit).toNat := by decide
  exact Text.lowerAfter_count isSign before t

theorem countDots_of_lower {s t : Text} (same : Text.lower s = Text.lower t) :
    countDots s = countDots t := by
  rw [← countDots_lowerAfter [] s, ← countDots_lowerAfter [] t, ← Text.lower_eq, ← Text.lower_eq,
    same]

theorem modifyBucket_eq (change : Assoc CatalogEntry → Assoc CatalogEntry) (n m : Nat)
    (buckets : List (Assoc CatalogEntry)) :
    ((modifyBucket change n buckets)[m]?).getD [] =
      if m = n then change ((buckets[n]?).getD []) else (buckets[m]?).getD [] := by
  induction n generalizing m buckets with
  | zero => cases buckets <;> cases m <;> simp [modifyBucket]
  | succ n ih =>
      cases buckets with
      | nil =>
          cases m with
          | zero => simp [modifyBucket]
          | succ m => simpa [modifyBucket] using ih m []
      | cons first rest =>
          cases m with
          | zero => simp [modifyBucket]
          | succ m => simpa [modifyBucket] using ih m rest

variable {c : Catalog} {key other : Text} {d : Descriptor}

theorem bucket_add (filled : key ≠ []) (n : Nat) :
    (c.add key d).bucket n =
      if n = countDots key then addToBucket (c.bucket n) key d else c.bucket n := by
  have isFilled : ¬key.isEmpty = true := by rwa [List.isEmpty_iff]
  rw [add, if_neg isFilled, bucket, modifyBucket_eq]
  by_cases same : n = countDots key
  · rw [if_pos same, if_pos same, same]
    rfl
  · rw [if_neg same, if_neg same]
    rfl

theorem add_empty : c.add [] d = c := rfl

/-- What an added descriptor finds: the entry of its key or a new one. -/
def entryFor (c : Catalog) (key : Text) : CatalogEntry :=
  (c.find? key).getD { key, descriptors := [] }

theorem find?_add (filled : key ≠ []) (other : Text) :
    (c.add key d).find? other =
      if Text.lower other = Text.lower key then some (CatalogEntry.add (c.entryFor key) d)
      else c.find? other := by
  rw [find?, bucket_add filled]
  by_cases same : Text.lower other = Text.lower key
  · rw [if_pos same, if_pos (countDots_of_lower same), addToBucket, Assoc.get?_set, if_pos same,
      countDots_of_lower same]
    rfl
  · rw [if_neg same]
    split
    · rw [addToBucket, Assoc.get?_set, if_neg same]
      rfl
    · rfl

end Buckets

/-! Entries. -/

section Entries

variable {e : CatalogEntry} {d d' : Descriptor}

theorem entry_add_key : (CatalogEntry.add e d).key = e.key := by
  rw [CatalogEntry.add]
  split <;> rfl

theorem mem_entry_add (listed : d' ∈ (CatalogEntry.add e d).descriptors) :
    d' ∈ e.descriptors ∨ d' = d := by
  rw [CatalogEntry.add] at listed
  split at listed
  · exact Or.inl listed
  · simpa using listed

/-- A descriptor that is added is there under its identity. -/
theorem entry_add_holds : ∃ d' ∈ (CatalogEntry.add e d).descriptors, d'.key = d.key := by
  rw [CatalogEntry.add]
  split
  · rename_i known
    obtain ⟨d', listed, same⟩ := List.any_eq_true.mp known
    exact ⟨d', listed, beq_iff_eq.mp same⟩
  · exact ⟨d, by simp, rfl⟩

/-- An entry that was extended: the key stays and descriptors are only added. -/
def Grows (e e' : CatalogEntry) : Prop := e'.key = e.key ∧ e.descriptors <+: e'.descriptors

theorem Grows.trans {e e' e'' : CatalogEntry} (first : Grows e e') (second : Grows e' e'') :
    Grows e e'' := ⟨second.1.trans first.1, first.2.trans second.2⟩

theorem entry_add_grows : Grows e (CatalogEntry.add e d) := by
  refine ⟨entry_add_key, ?_⟩
  rw [CatalogEntry.add]
  split
  · exact List.prefix_refl _
  · exact List.prefix_append _ _

theorem entry_add_distinct (distinct : (e.descriptors.map Descriptor.key).Nodup) :
    ((CatalogEntry.add e d).descriptors.map Descriptor.key).Nodup := by
  rw [CatalogEntry.add]
  split
  · exact distinct
  · rename_i absent
    rw [List.map_append, List.nodup_append]
    refine ⟨distinct, List.pairwise_singleton _ _, ?_⟩
    rintro key isOld _ isNew rfl
    obtain ⟨old, listed, same⟩ := List.mem_map.mp isOld
    rw [List.map_singleton, List.mem_singleton] at isNew
    exact absent (List.any_eq_true.mpr ⟨old, listed, beq_iff_eq.mpr (same.trans isNew)⟩)

end Entries

/-! What stays in order. -/

section Kept

/-- An entry as bucket `n` keeps it under a lower-case key. -/
structure EntryKept (n : Nat) (lowered : Text) (entry : CatalogEntry) : Prop where
  stored : lowered = Text.lower entry.key
  filled : entry.key ≠ []
  dots : countDots entry.key = n
  described : entry.descriptors ≠ []
  distinct : (entry.descriptors.map Descriptor.key).Nodup

structure BucketKept (n : Nat) (bucket : Assoc CatalogEntry) : Prop where
  keys : (bucket.map Prod.fst).Nodup
  entries : ∀ lowered entry, (lowered, entry) ∈ bucket → EntryKept n lowered entry

/-- Every bucket is in order. -/
def Kept (c : Catalog) : Prop := ∀ n, BucketKept n (c.bucket n)

/-- Every descriptor was offered under the key of its entry, letter case apart. -/
def Stems (offered : Text → Descriptor → Prop) (c : Catalog) : Prop :=
  ∀ n lowered entry, (lowered, entry) ∈ c.bucket n → ∀ d ∈ entry.descriptors,
    ∃ key, offered key d ∧ Text.lower key = lowered

variable {c : Catalog} {key : Text} {d : Descriptor}

theorem entry_add_kept {e : CatalogEntry} {n : Nat} {lowered : Text}
    (stored : lowered = Text.lower e.key) (filled : e.key ≠ []) (dots : countDots e.key = n)
    (distinct : (e.descriptors.map Descriptor.key).Nodup) :
    EntryKept n lowered (CatalogEntry.add e d) := by
  have sameKey : (CatalogEntry.add e d).key = e.key := entry_add_key
  refine ⟨by rw [sameKey, stored], by rwa [sameKey], by rw [sameKey, dots], ?_,
    entry_add_distinct distinct⟩
  obtain ⟨d', listed, -⟩ := entry_add_holds (e := e) (d := d)
  exact List.ne_nil_of_mem listed

theorem addToBucket_kept {bucket : Assoc CatalogEntry} (filled : key ≠ [])
    (kept : BucketKept (countDots key) bucket) :
    BucketKept (countDots key) (addToBucket bucket key d) := by
  constructor
  · exact Assoc.keys_set_nodup kept.keys _ _
  · intro lowered entry listed
    rcases Assoc.mem_set listed with isNew | older
    · obtain ⟨rfl, rfl⟩ := Prod.mk.inj isNew
      cases found : Assoc.get? bucket (Text.lower key) with
      | none => exact entry_add_kept rfl filled rfl List.nodup_nil
      | some old =>
          have before := kept.entries _ _ ((Assoc.get?_eq_some_iff kept.keys).mp found)
          exact entry_add_kept before.stored before.filled before.dots before.distinct
    · exact kept.entries lowered entry older

theorem add_kept (kept : c.Kept) : (c.add key d).Kept := by
  intro n
  by_cases filled : key = []
  · rw [filled, add_empty]
    exact kept n
  · rw [bucket_add filled]
    split
    · rename_i same
      rw [same]
      exact addToBucket_kept filled (kept _)
    · exact kept n

theorem add_stems {offered : Text → Descriptor → Prop} (stems : Stems offered c)
    (isOffered : key ≠ [] → offered key d) : Stems offered (c.add key d) := by
  intro n lowered entry listed d' isDescriptor
  by_cases filled : key = []
  · rw [filled, add_empty] at listed
    exact stems n lowered entry listed d' isDescriptor
  rw [bucket_add filled] at listed
  split at listed
  · rcases Assoc.mem_set listed with isNew | older
    · obtain ⟨rfl, rfl⟩ := Prod.mk.inj isNew
      rcases mem_entry_add isDescriptor with isOld | rfl
      · cases found : Assoc.get? (c.bucket n) (Text.lower key) with
        | none =>
            rw [found] at isOld
            exact absurd isOld List.not_mem_nil
        | some old =>
            rw [found] at isOld
            obtain ⟨front, back, split, -⟩ := List.lookup_eq_some_iff.mp found
            exact stems n _ old (by simp [split]) d' isOld
      · exact ⟨key, isOffered filled, rfl⟩
    · exact stems n lowered entry older d' isDescriptor
  · exact stems n lowered entry listed d' isDescriptor

theorem find?_add_grows {other : Text} {e : CatalogEntry} (found : c.find? other = some e) :
    ∃ e', (c.add key d).find? other = some e' ∧ Grows e e' := by
  by_cases filled : key = []
  · rw [filled, add_empty]
    exact ⟨e, found, rfl, List.prefix_refl _⟩
  rw [find?_add filled]
  split
  · rename_i same
    have isEntry : c.entryFor key = e := by
      rw [entryFor, find?, ← same, ← countDots_of_lower same]
      exact congrArg (fun entry : Option CatalogEntry => entry.getD _) found
    exact ⟨_, rfl, isEntry ▸ entry_add_grows⟩
  · exact ⟨e, found, rfl, List.prefix_refl _⟩

end Kept

/-! A whole filling. -/

section Filling

/-- The catalog after some offers. -/
def fill (c : Catalog) (offers : List (Text × Descriptor)) : Catalog :=
  offers.foldl (fun c offer => c.add offer.1 offer.2) c

variable {c : Catalog} {offers : List (Text × Descriptor)} {key : Text} {d : Descriptor}

theorem fill_cons (offer : Text × Descriptor) (rest : List (Text × Descriptor)) :
    c.fill (offer :: rest) = (c.add offer.1 offer.2).fill rest := rfl

theorem fill_append (first second : List (Text × Descriptor)) :
    c.fill (first ++ second) = (c.fill first).fill second := List.foldl_append

theorem foldl_eq_fill {α : Type} {step : Catalog → α → Catalog}
    {offersOf : α → List (Text × Descriptor)} (steps : ∀ c x, step c x = c.fill (offersOf x))
    (items : List α) (c : Catalog) : items.foldl step c = c.fill (items.flatMap offersOf) := by
  induction items generalizing c with
  | nil => rfl
  | cons first rest ih =>
      rw [List.foldl_cons, ih, steps, List.flatMap_cons, fill_append]

theorem fill_kept (kept : c.Kept) : (c.fill offers).Kept := by
  induction offers generalizing c with
  | nil => exact kept
  | cons offer rest ih => exact ih (add_kept kept)

theorem fill_stems {offered : Text → Descriptor → Prop} (stems : Stems offered c)
    (isOffered : ∀ offer ∈ offers, offer.1 ≠ [] → offered offer.1 offer.2) :
    Stems offered (c.fill offers) := by
  induction offers generalizing c with
  | nil => exact stems
  | cons offer rest ih =>
      exact ih (add_stems stems (isOffered offer List.mem_cons_self)) fun later isRest =>
        isOffered later (List.mem_cons_of_mem _ isRest)

theorem find?_fill_grows {e : CatalogEntry} (found : c.find? key = some e) :
    ∃ e', (c.fill offers).find? key = some e' ∧ Grows e e' := by
  induction offers generalizing c e with
  | nil => exact ⟨e, found, rfl, List.prefix_refl _⟩
  | cons offer rest ih =>
      obtain ⟨e', found', grown⟩ :
          ∃ e', (c.add offer.1 offer.2).find? key = some e' ∧ Grows e e' := find?_add_grows found
      obtain ⟨e'', found'', grown'⟩ := ih found'
      exact ⟨e'', found'', grown.trans grown'⟩

theorem find?_fill_other
    (others : ∀ offer ∈ offers, Text.lower offer.1 ≠ Text.lower key) :
    (c.fill offers).find? key = c.find? key := by
  induction offers generalizing c with
  | nil => rfl
  | cons offer rest ih =>
      rw [fill_cons, ih fun later isRest => others later (List.mem_cons_of_mem _ isRest)]
      by_cases filled : offer.1 = []
      · rw [filled, add_empty]
      · rw [find?_add filled, if_neg (Ne.symm (others offer List.mem_cons_self))]

/-- What is offered is there, under its identity. -/
theorem fill_holds (listed : (key, d) ∈ offers) (filled : key ≠ []) :
    ∃ e, (c.fill offers).find? key = some e ∧ ∃ d' ∈ e.descriptors, d'.key = d.key := by
  obtain ⟨front, back, rfl⟩ := List.append_of_mem listed
  obtain ⟨d', isThere, same⟩ := entry_add_holds (e := (c.fill front).entryFor key) (d := d)
  have found : ((c.fill front).add key d).find? key =
      some (CatalogEntry.add ((c.fill front).entryFor key) d) := by
    rw [find?_add filled, if_pos rfl]
  rw [fill_append, fill_cons]
  obtain ⟨e, found', grown⟩ := find?_fill_grows found
  exact ⟨e, found', d', grown.2.subset isThere, same⟩

/-- What is offered before all else of its key is there as it is, and names the entry. -/
theorem fill_first {front back : List (Text × Descriptor)} (filled : key ≠ [])
    (absent : c.find? key = none) (first : ∀ offer ∈ front, Text.lower offer.1 ≠ Text.lower key) :
    ∃ e, (c.fill (front ++ (key, d) :: back)).find? key = some e ∧ e.key = key ∧
      d ∈ e.descriptors := by
  have isNew : (c.fill front).entryFor key = { key, descriptors := [] } := by
    rw [entryFor, find?_fill_other first, absent]
    rfl
  have found : ((c.fill front).add key d).find? key = some { key, descriptors := [d] } := by
    rw [find?_add filled, if_pos rfl, isNew]
    rfl
  rw [fill_append, fill_cons]
  obtain ⟨e, found', grown⟩ := find?_fill_grows found
  exact ⟨e, found', grown.1, grown.2.subset (List.mem_singleton.mpr rfl)⟩

end Filling

/-! Looking up. -/

section Lookup

def bucketPairs (bucket : Assoc CatalogEntry) : List (Text × Descriptor) :=
  (Assoc.values bucket).flatMap fun entry => entry.descriptors.map (entry.key, ·)

/-- All keys with their descriptors, bucket by bucket. -/
def pairs (c : Catalog) : List (Text × Descriptor) := c.buckets.flatMap bucketPairs

theorem dots_of_kept {n : Nat} {bucket : Assoc CatalogEntry} (kept : BucketKept n bucket)
    {pair : Text × Descriptor} (listed : pair ∈ bucketPairs bucket) : countDots pair.1 = n := by
  obtain ⟨entry, isEntry, isPair⟩ := List.mem_flatMap.mp listed
  obtain ⟨⟨lowered, _⟩, isKept, rfl⟩ := List.mem_map.mp isEntry
  obtain ⟨d, -, rfl⟩ := List.mem_map.mp isPair
  exact (kept.entries lowered _ isKept).dots

/-- Of buckets that count dots from `start` on, those pairs have `start + n` dots that are in
bucket `n`. -/
theorem filter_buckets (buckets : List (Assoc CatalogEntry)) (start n : Nat)
    (counted : ∀ i bucket, buckets[i]? = some bucket →
      ∀ pair ∈ bucketPairs bucket, countDots pair.1 = start + i) :
    (buckets.flatMap bucketPairs).filter (fun pair => countDots pair.1 == start + n) =
      bucketPairs ((buckets[n]?).getD []) := by
  induction buckets generalizing start n with
  | nil => rfl
  | cons first rest ih =>
      have here := counted 0 first rfl
      have later := ih (start + 1)
      rw [List.flatMap_cons, List.filter_append]
      cases n with
      | zero =>
          have all : (bucketPairs first).filter (fun pair => countDots pair.1 == start + 0) =
              bucketPairs first :=
            List.filter_eq_self.mpr fun pair listed => beq_iff_eq.mpr (here pair listed)
          have none : (rest.flatMap bucketPairs).filter
              (fun pair => countDots pair.1 == start + 0) = [] := by
            rw [List.filter_eq_nil_iff]
            intro pair listed
            obtain ⟨bucket, isBucket, isPair⟩ := List.mem_flatMap.mp listed
            obtain ⟨i, isThere⟩ := List.mem_iff_getElem?.mp isBucket
            have dots := counted (i + 1) bucket isThere pair isPair
            rw [beq_iff_eq]
            omega
          rw [all, none, List.append_nil]
          rfl
      | succ n =>
          have none : (bucketPairs first).filter
              (fun pair => countDots pair.1 == start + (n + 1)) = [] := by
            rw [List.filter_eq_nil_iff]
            intro pair listed
            have dots := here pair listed
            rw [beq_iff_eq]
            omega
          have shift : start + (n + 1) = start + 1 + n := by omega
          rw [none, List.nil_append, shift, later n fun i bucket isThere pair listed => by
            have dots := counted (i + 1) bucket isThere pair listed
            omega]
          rfl

theorem lookup_eq {c : Catalog} (kept : c.Kept) {word : Text} {pattern : Wildcard.Pattern}
    (compiled : Wildcard.Pattern.compile (if Text.endsWith word "*" then word else word ++ "*") =
      .ok pattern) :
    c.lookup word = .ok (c.pairs.filter fun pair =>
      pattern.test pair.1 && countDots pair.1 == countDots word) := by
  have counted : ∀ i bucket, c.buckets[i]? = some bucket →
      ∀ pair ∈ bucketPairs bucket, countDots pair.1 = 0 + i := by
    intro i bucket isThere pair listed
    have isBucket : c.bucket i = bucket := by rw [Catalog.bucket, isThere]; rfl
    rw [dots_of_kept (isBucket ▸ kept i) listed, Nat.zero_add]
  have chosen := filter_buckets c.buckets 0 (countDots word) counted
  rw [Nat.zero_add] at chosen
  rw [← List.filter_filter, pairs, chosen, lookup]
  cases c.buckets[countDots word]? with
  | none => rfl
  | some bucket =>
      simp only [compiled, bucketPairs, List.filter_flatMap]
      refine congrArg Except.ok (List.flatMap_congr fun entry _ => ?_)
      rw [List.filter_map]
      by_cases matched : pattern.test entry.key = true
      · simp [Function.comp_def, matched]
      · simp [Function.comp_def, matched]

end Lookup

end TabCompletion.Catalog
