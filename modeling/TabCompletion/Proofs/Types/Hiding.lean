import TabCompletion.Proofs.Types.Lineage

/-!
Which of two types hides the members of the other. The walk comes to a type after all that leads to it
without going by an earlier parent of a common descendant. So a derived type hides its base types
except where a type refers to both and comes to the base type first.
-/

namespace TabCompletion

namespace Registry

/-- A type can be reached from a name by a way that does not lead through another one. -/
def ReachesPast (r : Registry) (isStatic : Bool) (apart : TypeModel) (name : Text) (t : TypeModel) :
    Prop :=
  ∃ first, r.getType name = some first ∧ first ≠ apart ∧
    Relation.ReflTransGen (fun s u => r.Names isStatic s u ∧ u ≠ apart) first t

/-- Of two names in a list the first leads to the base type past the derived one, and a later one
leads to the derived one. -/
def Forks (r : Registry) (isStatic : Bool) (names : List Text) (derived base : TypeModel) : Prop :=
  ∃ nearer farther, [nearer, farther].Sublist names ∧ r.ReachesPast isStatic derived nearer base ∧
    r.Reaches isStatic farther derived

/-- A type declares a member with this key. -/
def Declares (isStatic : Bool) (key : Text) (t : TypeModel) : Prop :=
  ∃ m ∈ t.members, (m.isStatic == some true) = isStatic ∧ memberKey m = key

/-- A base type overtakes a derived one with a key: the walk comes to it first, and to no other type
with that key before it, because some type refers to what leads to it before it refers to what leads to
the derived type. -/
structure Overtakes (r : Registry) (typeName : Text) (isStatic : Bool) (key : Text)
    (base derived : TypeModel) : Prop where
  earlier : [base, derived].Sublist (r.lineage typeName isStatic)
  foremost : ∀ t, [t, base].Sublist (r.lineage typeName isStatic) → ¬Declares isStatic key t
  fork : ∃ t, r.Reaches isStatic typeName t ∧ r.Forks isStatic (parents isStatic t) derived base

variable {r : Registry} {isStatic : Bool}

theorem Forks.widen {names more : List Text} {derived base : TypeModel}
    (forks : r.Forks isStatic names derived base) (part : names.Sublist more) :
    r.Forks isStatic more derived base := by
  obtain ⟨nearer, farther, inOrder, past, reached⟩ := forks
  exact ⟨nearer, farther, inOrder.trans part, past, reached⟩

/-- What a parent leads to past a type, the type that refers to it leads to as well. -/
theorem ReachesPast.ofParent {apart s t : TypeModel} {name parent : Text}
    (found : r.getType name = some s) (other : s ≠ apart) (isParent : parent ∈ parents isStatic s)
    (past : r.ReachesPast isStatic apart parent t) : r.ReachesPast isStatic apart name t := by
  obtain ⟨first, isFirst, firstOther, way⟩ := past
  exact ⟨s, found, other, .head ⟨⟨parent, isParent, isFirst⟩, firstOther⟩ way⟩

namespace Walk

variable {pending visited : List Text} {order : List TypeModel}

/-- A walk takes one way only. -/
theorem unique {other : List TypeModel} (walk : r.Walk isStatic pending visited order)
    (twin : r.Walk isStatic pending visited other) : order = other := by
  induction walk generalizing other with
  | done =>
      cases twin
      rfl
  | unknown absent _ ih =>
      cases twin with
      | unknown _ rest => exact ih rest
      | met found => simp [absent] at found
      | entered found => simp [absent] at found
  | met found isVisited _ ih =>
      cases twin with
      | unknown absent => simp [found] at absent
      | met _ _ rest => exact ih rest
      | entered found' fresh =>
          rw [found] at found'
          cases found'
          exact absurd isVisited fresh
  | entered found fresh _ ih =>
      cases twin with
      | unknown absent => simp [found] at absent
      | met found' isVisited =>
          rw [found] at found'
          cases found'
          exact absurd isVisited fresh
      | entered found' _ rest =>
          rw [found] at found'
          cases found'
          rw [ih rest]

/-- Where a walk comes to a base type before a type derived from it, two pending names or two parents
of a type that it comes to fork. -/
theorem forks {base derived : TypeModel} (walk : r.Walk isStatic pending visited order)
    (earlier : [base, derived].Sublist order)
    (notBack : ¬Relation.ReflTransGen (r.Names isStatic) base derived) :
    r.Forks isStatic pending derived base ∨
      ∃ t ∈ order, r.Forks isStatic (parents isStatic t) derived base := by
  induction walk with
  | done => cases earlier
  | unknown _ _ ih | met _ _ _ ih =>
      rcases ih earlier with forks | forks
      · exact Or.inl (forks.widen (List.sublist_cons_self _ _))
      · exact Or.inr forks
  | @entered name pending visited s order found fresh rest ih =>
      have later : derived ∈ order := by
        cases earlier with
        | cons _ inside => exact inside.subset (List.mem_cons_of_mem _ List.mem_cons_self)
        | cons_cons _ inside => exact inside.subset List.mem_cons_self
      have other : s ≠ derived := by
        rintro rfl
        exact rest.distinct.2 s later List.mem_cons_self
      cases earlier with
      | cons _ inside =>
          rcases ih inside with ⟨nearer, farther, inOrder, past, reached⟩ | ⟨t, listed, forks⟩
          · -- The fork lies among the parents, between them and the pending names, or among these.
            obtain ⟨front, back, split, ofParents, ofPending⟩ := List.sublist_append_iff.mp inOrder
            match front, split with
            | [], split =>
                rw [List.nil_append] at split
                subst split
                exact Or.inl ⟨nearer, farther, ofPending.cons _, past, reached⟩
            | [first], split =>
                obtain ⟨rfl, rfl⟩ := List.cons.inj split
                have isParent := ofParents.subset List.mem_cons_self
                exact Or.inl ⟨name, farther, ofPending.cons_cons _, past.ofParent found other isParent,
                  reached⟩
            | [_, _], split =>
                cases split
                exact Or.inr ⟨s, List.mem_cons_self, nearer, farther, ofParents, past, reached⟩
          · exact Or.inr ⟨t, List.mem_cons_of_mem _ listed, forks⟩
      | cons_cons _ inside =>
          -- The base type is entered here, and what leads to the derived one is no parent of it.
          obtain ⟨farther, isNext, first, isFirst, way⟩ := rest.reaches derived later
          rcases List.mem_append.mp isNext with isParent | isPending
          · exact absurd (.head ⟨farther, isParent, isFirst⟩ way) notBack
          · refine Or.inl ⟨name, farther, ?_, ⟨_, found, other, .refl⟩, first, isFirst, way⟩
            exact (List.singleton_sublist.mpr isPending).cons_cons _

end Walk

theorem pair_in_order {order : List TypeModel} {s t : TypeModel} (isFirst : s ∈ order)
    (isSecond : t ∈ order) (apart : s ≠ t) : [s, t].Sublist order ∨ [t, s].Sublist order := by
  obtain ⟨before, after, rfl⟩ := List.append_of_mem isFirst
  rcases List.mem_append.mp isSecond with earlier | later
  · exact Or.inr ((List.singleton_sublist.mpr earlier).append
      (List.singleton_sublist.mpr List.mem_cons_self))
  · rcases List.mem_cons.mp later with same | later
    · exact absurd same.symm apart
    · exact Or.inl (((List.singleton_sublist.mpr later).cons_cons s).trans
        (List.sublist_append_right _ _))

/-- Nothing is listed for a type with a key that an earlier type declares. -/
theorem hidden_origin {taken : List Text} {order : List TypeModel} {first hidden : TypeModel}
    {key : Text} {pair : Member × TypeModel} (inOrder : [first, hidden].Sublist order)
    (distinct : order.Nodup) (declares : Declares isStatic key first)
    (listed : pair ∈ originsAmong isStatic taken order) (isKey : memberKey pair.1 = key) :
    pair.2 ≠ hidden := by
  induction order generalizing taken with
  | nil => cases inOrder
  | cons t later ih =>
      obtain ⟨notAgain, distinct⟩ := List.nodup_cons.mp distinct
      have isLater : hidden ∈ later := by
        cases inOrder with
        | cons _ inside => exact inside.subset (List.mem_cons_of_mem _ List.mem_cons_self)
        | cons_cons _ inside => exact inside.subset List.mem_cons_self
      rw [originsAmong] at listed
      rcases List.mem_append.mp listed with here | there
      · obtain ⟨-, -, rfl⟩ := List.mem_map.mp here
        rintro rfl
        exact notAgain isLater
      · cases inOrder with
        | cons _ inside => exact ih inside distinct there
        | cons_cons _ _ =>
            obtain ⟨m, declared, own, same⟩ := declares
            have taken := (origin_declared there).2.2.2
            rw [isKey, ← same] at taken
            exact absurd (key_taken declared own) taken

/-- Declarations hide those of a base type with the same key unless the base type overtakes: exactly
then a member of the base type is listed although the derived type declares its key. It is not even
needed that the one type leads to the other, only that there is no way back. -/
theorem derived_hides_base (models : List TypeModel) (typeName : Text) (isStatic : Bool) {key : Text}
    {derived base : TypeModel}
    (derivedReached : (Catalog.added models).Reaches isStatic typeName derived)
    (baseReached : (Catalog.added models).Reaches isStatic typeName base)
    (notBack : ¬Relation.ReflTransGen ((Catalog.added models).Names isStatic) base derived)
    (declares : Declares isStatic key derived) (declaresToo : Declares isStatic key base) :
    (Catalog.added models).getMembers typeName isStatic =
        ((Catalog.added models).memberOrigins typeName isStatic).map (·.1) ∧
      ((∀ pair ∈ (Catalog.added models).memberOrigins typeName isStatic, memberKey pair.1 = key →
          pair.2 ≠ base) ↔
        ¬(Catalog.added models).Overtakes typeName isStatic key base derived) := by
  have filed := filed_added models
  have walk := walk_lineage filed typeName isStatic
  have distinct := walk.distinct.1.of_map
  have listed : ∀ t, (Catalog.added models).Reaches isStatic typeName t → Declares isStatic key t →
      t ∈ (Catalog.added models).lineage typeName isStatic := fun t reached ⟨_, declared, _⟩ =>
    mem_lineage filed reached (List.ne_nil_of_mem declared)
  have isDerived := listed derived derivedReached declares
  have isBase := listed base baseReached declaresToo
  refine ⟨getMembers_eq _ _ _, ?_, ?_⟩
  · -- A base type that is the first with its key has a member listed with it.
    rintro hidden ⟨-, foremost, -⟩
    obtain ⟨m, declared, own, same⟩ := declaresToo
    obtain ⟨pair, isListed, isKey⟩ := exists_origin isBase declared own List.not_mem_nil
    rw [same] at isKey
    have apart := hidden pair isListed isKey
    obtain ⟨isType, pairDeclared, pairOwn, -⟩ := origin_declared isListed
    rcases pair_in_order isType isBase apart with before | after
    · exact foremost pair.2 before ⟨pair.1, pairDeclared, pairOwn, isKey⟩
    · exact hidden_origin after distinct ⟨m, declared, own, same⟩ isListed isKey rfl
  · rintro inTurn pair isListed isKey rfl
    have apart : derived ≠ pair.2 := by
      rintro rfl
      exact notBack .refl
    have foremost : ∀ t, [t, pair.2].Sublist ((Catalog.added models).lineage typeName isStatic) →
        ¬Declares isStatic key t := fun t before declaresFirst =>
      hidden_origin before distinct declaresFirst isListed isKey rfl
    have earlier := (pair_in_order isDerived isBase apart).resolve_left
      fun before => foremost derived before declares
    refine inTurn ⟨earlier, foremost, ?_⟩
    rcases walk.forks earlier notBack with ⟨_, _, alone, -⟩ | ⟨t, isType, forks⟩
    · exact absurd alone.length_le (by simp)
    · exact ⟨t, lineage_reaches walk isType, forks⟩

/-! A chain of types and a fork. -/

def taggedBase : TypeModel :=
  { fullName := "Demo.IBase", kind := .interface, members := [{ name := "Tag", kind := .property }] }

def taggedDerived : TypeModel :=
  { fullName := "Demo.IDerived", kind := .interface, interfaces := some ["Demo.IBase"]
    members := [{ name := "Tag", kind := .field }] }

/-- A class that implements both, the base interface first. -/
def taggedBoth : TypeModel :=
  { fullName := "Demo.Both", kind := .cls, interfaces := some ["Demo.IBase", "Demo.IDerived"] }

abbrev tagged : Registry := Catalog.added [taggedBase, taggedDerived, taggedBoth]

theorem tagged_base : tagged.getType "Demo.IBase" = some taggedBase := by
  refine getType_filed (by decide +kernel) ?_
  simp only [tagged, Catalog.added, List.foldl, addType, Assoc.get?_set]
  rw [if_neg (by decide +kernel), if_neg (by decide +kernel), if_pos (by decide +kernel)]

theorem tagged_derived : tagged.getType "Demo.IDerived" = some taggedDerived := by
  refine getType_filed (by decide +kernel) ?_
  simp only [tagged, Catalog.added, List.foldl, addType, Assoc.get?_set]
  rw [if_neg (by decide +kernel), if_pos (by decide +kernel)]

theorem tagged_both : tagged.getType "Demo.Both" = some taggedBoth := by
  refine getType_filed (by decide +kernel) ?_
  simp only [tagged, Catalog.added, List.foldl, addType, Assoc.get?_set]
  rw [if_pos (by decide +kernel)]

theorem tagged_names : tagged.Names false taggedDerived taggedBase :=
  ⟨"Demo.IBase", List.mem_cons_self, tagged_base⟩

theorem tagged_not_back : ¬Relation.ReflTransGen (tagged.Names false) taggedBase taggedDerived := by
  intro way
  rcases way.cases_head with same | ⟨-, ⟨name, isParent, -⟩, -⟩
  · exact absurd (congrArg TypeModel.fullName same) (by decide)
  · cases isParent

theorem declares_tag {t : TypeModel} (isTagged : t = taggedBase ∨ t = taggedDerived) :
    Declares false "p:tag" t := by
  rcases isTagged with rfl | rfl
  · exact ⟨_, List.mem_cons_self, rfl, by decide +kernel⟩
  · exact ⟨_, List.mem_cons_self, rfl, by decide +kernel⟩

theorem lineage_derived : tagged.lineage "Demo.IDerived" false = [taggedDerived, taggedBase] :=
  (walk_lineage (filed_added _) _ _).unique
    (.entered tagged_derived (by decide) (.entered tagged_base (by decide +kernel) .done))

theorem lineage_both : tagged.lineage "Demo.Both" false = [taggedBoth, taggedBase, taggedDerived] :=
  (walk_lineage (filed_added _) _ _).unique
    (.entered tagged_both (by decide) (.entered tagged_base (by decide +kernel)
      (.entered tagged_derived (by decide +kernel)
        (.met tagged_base (by decide +kernel) .done))))

/-- The derived interface hides the member of its base. -/
theorem derived_tag_hides_base :
    tagged.Reaches false "Demo.IDerived" taggedDerived ∧
      tagged.Reaches false "Demo.IDerived" taggedBase ∧
      ¬Relation.ReflTransGen (tagged.Names false) taggedBase taggedDerived ∧
      Declares false "p:tag" taggedDerived ∧ Declares false "p:tag" taggedBase ∧
      ∀ pair ∈ tagged.memberOrigins "Demo.IDerived" false, memberKey pair.1 = "p:tag" →
        pair.2 ≠ taggedBase := by
  have derived : tagged.Reaches false "Demo.IDerived" taggedDerived := ⟨_, tagged_derived, .refl⟩
  have base : tagged.Reaches false "Demo.IDerived" taggedBase :=
    ⟨_, tagged_derived, .single tagged_names⟩
  have isFirst := declares_tag (Or.inr rfl)
  have isSecond := declares_tag (Or.inl rfl)
  refine ⟨derived, base, tagged_not_back, isFirst, isSecond,
    (derived_hides_base _ _ _ derived base tagged_not_back isFirst isSecond).2.mpr ?_⟩
  rintro ⟨earlier, -, -⟩
  rw [lineage_derived] at earlier
  cases earlier with
  | cons _ inside => exact absurd inside.length_le (by simp)

/-- The class that implements both refers to the base interface first, and so its member is listed and
that of the derived interface is hidden. -/
theorem overtaking_base_hides_derived :
    tagged.Reaches false "Demo.Both" taggedDerived ∧
      Relation.ReflTransGen (tagged.Names false) taggedDerived taggedBase ∧
      ¬Relation.ReflTransGen (tagged.Names false) taggedBase taggedDerived ∧
      Declares false "p:tag" taggedDerived ∧ Declares false "p:tag" taggedBase ∧
      tagged.memberOrigins "Demo.Both" false =
        [({ name := "Tag", kind := .property }, taggedBase)] ∧
      tagged.getMembers "Demo.Both" false = [{ name := "Tag", kind := .property }] := by
  have origins : tagged.memberOrigins "Demo.Both" false =
      [({ name := "Tag", kind := .property }, taggedBase)] := by
    rw [memberOrigins, lineage_both]
    rfl
  refine ⟨⟨_, tagged_both, .single ⟨"Demo.IDerived", by decide, tagged_derived⟩⟩,
    .single tagged_names, tagged_not_back, declares_tag (Or.inr rfl), declares_tag (Or.inl rfl),
    origins, ?_⟩
  rw [getMembers_eq, origins]
  rfl

end Registry

end TabCompletion
