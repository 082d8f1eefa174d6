import TabCompletion.Completion.Member
import TabCompletion.Proofs.Completion.Members
import TabCompletion.Proofs.Types.Lineage

/-!
Recursions over types. The walks along base types and interfaces visit a type once and so end, whatever
the registered types refer to. The members of elements are collected without such a guard: array types open
fewer brackets from one to the next, but a registered type may name any elements, and where these lead back
to it the collection has no end.
-/

namespace TabCompletion

namespace Registry

open TabCompletion.TypeName

/-! Turns of a walk. -/

/-- One call of a walk that is still to visit some names and has visited some types: what the visited type
refers to comes first, in an order that depends on the walk. -/
inductive Turn (r : Registry) (order : TypeModel → List Text) :
    List Text × List Text → List Text × List Text → Prop
  | unknown {name pending visited} : r.getType name = none →
      Turn r order (name :: pending, visited) (pending, visited)
  | met {name pending visited t} : r.getType name = some t → t.identity ∈ visited →
      Turn r order (name :: pending, visited) (pending, visited)
  | entered {name pending visited t} : r.getType name = some t → t.identity ∉ visited →
      Turn r order (name :: pending, visited) (order t ++ pending, t.identity :: visited)

/-- How many turns a walk can still take. -/
def turnsAhead (r : Registry) (state : List Text × List Text) : Nat :=
  (state.1.map stepsOf).sum + stepsAhead state.2 r.allTypes

section Turns

variable {r : Registry} (filed : r.Filed) {order : TypeModel → List Text} {isStatic : Bool}
  (refers : ∀ t, (order t).Perm (parents isStatic t))

include filed refers

theorem Turn.ahead_lt {before after : List Text × List Text} (turn : r.Turn order before after) :
    r.turnsAhead after < r.turnsAhead before := by
  cases turn with
  | @unknown name | @met name =>
      have some := stepsOf_pos name
      simp only [turnsAhead, List.map_cons, List.sum_cons]
      omega
  | @entered name pending visited t found fresh =>
      have fewer := steps_entered filed isStatic found fresh
      simp only [turnsAhead, List.map_append, List.sum_append, List.map_cons, List.sum_cons,
        ((refers t).map stepsOf).sum_nat]
      omega

theorem turns_length_le {start : List Text × List Text} {turns : List (List Text × List Text)}
    (taken : (start :: turns).IsChain (r.Turn order)) : turns.length ≤ r.turnsAhead start := by
  induction turns generalizing start with
  | nil => exact Nat.zero_le _
  | cons next later ih =>
      have first := Turn.ahead_lt filed refers (List.isChain_cons_cons.mp taken).1
      have rest := ih (List.isChain_cons_cons.mp taken).2
      rw [List.length_cons]
      omega

end Turns

/-! Elements. -/

/-- The type of a name has elements, and this is the name of their type. -/
def Element (r : Registry) (typeName element : Text) : Prop :=
  ((r.getType typeName).bind (·.elementType)).filter (!·.isEmpty) = some element

/-- The elements of a type lead to a type whose elements lead back to it. -/
def LeadsBack (r : Registry) (typeName : Text) : Prop :=
  ∃ name, Relation.ReflTransGen r.Element typeName name ∧ Relation.TransGen r.Element name name

section Elements

variable {r : Registry}

theorem elementChain?_next {typeName element : Text} (isElement : r.Element typeName element)
    (fuel : Nat) :
    r.elementChain? (fuel + 1) typeName = (r.elementChain? fuel element).map (typeName :: ·) := by
  rw [Element] at isElement
  rw [elementChain?, isElement]

theorem elementChain?_last {typeName : Text} (isLast : ∀ element, ¬r.Element typeName element)
    (fuel : Nat) : r.elementChain? (fuel + 1) typeName = some [typeName] := by
  rw [elementChain?]
  split
  · rename_i element isElement
    exact absurd isElement (isLast element)
  · rfl

/-- Where the chain is listed, no sequence of calls from one type to its elements goes on for ever. -/
theorem acc_of_elementChain? {fuel : Nat} {typeName : Text} {chain : List Text}
    (listed : r.elementChain? fuel typeName = some chain) :
    Acc (fun element typeName => r.Element typeName element) typeName := by
  induction fuel generalizing typeName chain with
  | zero => cases listed
  | succ fuel ih =>
      constructor
      intro element isElement
      rw [elementChain?_next isElement] at listed
      obtain ⟨rest, isRest, -⟩ := Option.map_eq_some_iff.mp listed
      exact ih isRest

theorem not_leadsBack_of_acc {typeName : Text}
    (ends : Acc (fun element typeName => r.Element typeName element) typeName) :
    ¬r.LeadsBack typeName := by
  rintro ⟨name, way, back⟩
  induction ends with
  | intro typeName _ ih =>
      rcases way.cases_head with rfl | ⟨element, isElement, later⟩
      · obtain ⟨element, isElement, later⟩ := Relation.TransGen.head'_iff.mp back
        exact ih element isElement later
      · exact ih element isElement later

/-- What the elements of a registered type count for in the bound of the chain. -/
def elementWeight (t : TypeModel) : Nat := (t.elementType.getD []).length + 1

theorem elementBound_eq (r : Registry) (typeName : Text) :
    r.elementBound typeName = ahead elementWeight [] r.allTypes + (typeName.length + 2) := by
  rw [elementBound]
  induction r.allTypes with
  | nil => exact (Nat.zero_add _).symm
  | cons first rest ih =>
      rw [List.foldr_cons, ih, ahead, if_neg List.not_mem_nil, elementWeight]
      exact (Nat.add_assoc _ _ _).symm

/-- A registered type on the way whose elements lead on to a name. -/
def Passed (r : Registry) (name identity : Text) : Prop :=
  ∃ t element, Assoc.get? r.types identity = some t ∧ t.elementType = some element ∧
    Relation.ReflTransGen r.Element element name

/-- Where no elements lead back, every type on the way is an array of fewer brackets or was not on the
way before, and the chain is listed within what these count for. -/
theorem elementChain?_isSome_of_passed (filed : r.Filed) {fuel : Nat} {name : Text}
    (passed : List Text) (ends : ¬r.LeadsBack name) (way : ∀ identity ∈ passed, r.Passed name identity)
    (enough : brackets name + ahead elementWeight passed r.allTypes < fuel) :
    (r.elementChain? fuel name).isSome = true := by
  induction fuel generalizing name passed with
  | zero => omega
  | succ fuel ih =>
      by_cases isLast : ∀ element, ¬r.Element name element
      · rw [elementChain?_last isLast]
        rfl
      · push Not at isLast
        obtain ⟨element, isElement⟩ := isLast
        obtain ⟨t, found, named⟩ :=
          Option.bind_eq_some_iff.mp (Option.filter_eq_some_iff.mp isElement).1
        have endsToo : ¬r.LeadsBack element := by
          rintro ⟨other, later, back⟩
          exact ends ⟨other, .head isElement later, back⟩
        have further : ∀ identity ∈ passed, r.Passed element identity := by
          intro identity isPassed
          obtain ⟨s, elements, isFiled, isNamed, led⟩ := way identity isPassed
          exact ⟨s, elements, isFiled, isNamed, led.tail isElement⟩
        rw [elementChain?_next isElement, Option.isSome_map]
        rcases (brackets_getTypeWithin filed found).2 with ⟨_, rfl, fewer⟩ | ⟨identity, isFiled⟩
        · cases named
          exact ih passed endsToo further (by omega)
        · obtain rfl := filed.filed isFiled
          have fresh : t.identity ∉ passed := by
            intro again
            obtain ⟨s, elements, isSame, isNamed, led⟩ := way _ again
            obtain rfl : t = s := Option.some_inj.mp (isFiled.symm.trans isSame)
            obtain rfl : element = elements := Option.some_inj.mp (named.symm.trans isNamed)
            exact endsToo ⟨element, .refl, .tail' led isElement⟩
          have weighs := ahead_visited elementWeight (Assoc.mem_values_of_get? isFiled) fresh
          have atMost : brackets element ≤ element.length := List.count_le_length
          have weight : elementWeight t = element.length + 1 := by
            rw [elementWeight, named]
            rfl
          apply ih (t.identity :: passed) endsToo
          · exact List.forall_mem_cons.mpr ⟨⟨t, element, isFiled, named, .refl⟩, further⟩
          · rw [allTypes] at enough ⊢
            omega

/-- The elements of a type are listed to the last exactly if none of them lead back. -/
theorem elementChain?_isSome_iff (filed : r.Filed) (typeName : Text) :
    (r.elementChain? (r.elementBound typeName) typeName).isSome = true ↔ ¬r.LeadsBack typeName := by
  constructor
  · intro listed
    obtain ⟨chain, isChain⟩ := Option.isSome_iff_exists.mp listed
    exact not_leadsBack_of_acc (acc_of_elementChain? isChain)
  · intro ends
    have atMost : brackets typeName ≤ typeName.length := List.count_le_length
    apply elementChain?_isSome_of_passed filed [] ends
    · exact List.forall_mem_nil _
    · rw [elementBound_eq]
      omega

end Elements

/-! Walks for enumerable types. -/

theorem reachable_eq (r : Registry) (fuel : Nat) (pending visited : List Text) :
    r.reachable fuel pending visited = r.lineageWithin false fuel pending visited := by
  induction fuel generalizing pending visited with
  | zero => rfl
  | succ fuel ih =>
      cases pending with
      | nil => rfl
      | cons name rest =>
          rw [reachable, lineageWithin]
          cases r.getType name with
          | none => exact ih rest visited
          | some t =>
              dsimp only
              rw [TypeModel.identity, ih, ih]

/-- The elements of a type can be listed by themselves. -/
def listsElements (t : TypeModel) : Bool :=
  t.elementType.any (!·.isEmpty) ||
    enumerableInterfaces.any fun name => Text.ofString name == Text.lower t.fullName

theorem isEnumerable_eq (r : Registry) (typeName : Text) :
    r.isEnumerable typeName =
      (Text.lower typeName != Text.ofString "system.string" &&
        (r.lineage typeName false).any listsElements) := by
  rw [isEnumerable, reachable_eq]
  rfl

/-! What ends, and what does not. -/

/-- The walks from a type end: they take few turns, whatever the registered types refer to, and the
bounded walks come to their ends. -/
structure WalksEnd (r : Registry) (typeName : Text) : Prop where
  turns : ∀ (isStatic : Bool) (order : TypeModel → List Text),
    (∀ t, (order t).Perm (parents isStatic t)) →
    ∀ turns, (([typeName], []) :: turns).IsChain (r.Turn order) → turns.length ≤ 2 * r.mentions + 2
  walks : ∀ isStatic, r.Walk isStatic [typeName] [] (r.lineage typeName isStatic)
  members : ∀ isStatic,
    r.getMembers typeName isStatic = (originsAmong isStatic [] (r.lineage typeName isStatic)).map (·.1)
  enumerable : r.isEnumerable typeName = (Text.lower typeName != Text.ofString "system.string" &&
    (r.lineage typeName false).any listsElements)

theorem walksEnd (models : List TypeModel) (typeName : Text) :
    (Catalog.added models).WalksEnd typeName := by
  have filed := filed_added models
  constructor
  · intro isStatic order refers turns taken
    have few := turns_length_le filed refers taken
    have first := stepsOf_le typeName
    rw [turnsAhead, stepsAhead_all, List.map_singleton, List.sum_singleton] at few
    omega
  · exact walk_lineage filed typeName
  · exact getMembers_eq _ typeName
  · exact isEnumerable_eq _ typeName

/-- Whatever types are added, the walks for members and for enumerable types end, and so does the
collection of static members. That of instance members ends exactly if no elements lead back to a type on
the way; otherwise the calls go on for ever. -/
theorem members_end_unless_elements_lead_back (models : List TypeModel) (typeName : Text) :
    (Catalog.added models).WalksEnd typeName ∧
    (Acc (fun element typeName => (Catalog.added models).Element typeName element) typeName ↔
      ¬(Catalog.added models).LeadsBack typeName) ∧
    ∀ (world : World) (state : EngineState), state.registry = Catalog.added models →
      (∃ members, Engine.run world state (Completion.reflectedMembers typeName true) =
        (.ok members, state)) ∧
      (¬(Catalog.added models).LeadsBack typeName →
        ∃ members, Engine.run world state (Completion.reflectedMembers typeName false) =
          (.ok members, state)) ∧
      ((Catalog.added models).LeadsBack typeName →
        Engine.run world state (Completion.reflectedMembers typeName false) =
          (.error .endlessElements, state)) := by
  have listed := elementChain?_isSome_iff (filed_added models) typeName
  constructor
  · exact walksEnd models typeName
  constructor
  · constructor
    · exact not_leadsBack_of_acc
    · intro ends
      obtain ⟨chain, isChain⟩ := Option.isSome_iff_exists.mp (listed.mpr ends)
      exact acc_of_elementChain? isChain
  · intro world state isAdded
    rw [← isAdded] at listed ⊢
    refine ⟨⟨_, Completion.run_reflectedMembers_static typeName⟩, fun ends => ?_, fun back => ?_⟩
    · obtain ⟨chain, isChain⟩ := Option.isSome_iff_exists.mp (listed.mpr ends)
      rw [Completion.run_reflectedMembers_instance, isChain]
      exact ⟨_, rfl⟩
    · have unlisted := Option.not_isSome_iff_eq_none.mp fun some => listed.mp some back
      rw [Completion.run_reflectedMembers_instance, unlisted]

/-! A shelf of shelves. -/

def shelfOfShelves : TypeModel :=
  { fullName := "Demo.Shelf", kind := .cls, members := [{ name := "Tag", kind := .property }]
    elementType := some "Demo.Shelf" }

def singleBook : TypeModel :=
  { fullName := "Demo.Book", kind := .cls, members := [{ name := "Tag", kind := .property }] }

abbrev shelved : Registry := Catalog.added [shelfOfShelves, singleBook]

theorem shelf_element : shelved.Element "Demo.Shelf" "Demo.Shelf" := by
  have found : shelved.getType "Demo.Shelf" = some shelfOfShelves := by
    apply getType_filed (by decide +kernel)
    simp only [shelved, Catalog.added, List.foldl, addType, Assoc.get?_set]
    rw [if_neg (by decide +kernel), if_pos (by decide +kernel)]
  rw [Element, found]
  rfl

theorem shelf_leads_back : shelved.LeadsBack "Demo.Shelf" :=
  ⟨"Demo.Shelf", .refl, .single shelf_element⟩

theorem book_has_no_elements (element : Text) : ¬shelved.Element "Demo.Book" element := by
  have found : shelved.getType "Demo.Book" = some singleBook := by
    apply getType_filed (by decide +kernel)
    simp only [shelved, Catalog.added, List.foldl, addType, Assoc.get?_set]
    rw [if_pos (by decide +kernel)]
  rw [Element, found]
  intro isElement
  cases isElement

theorem shelf_of_shelves_never_ends :
    ¬Acc (fun element typeName => shelved.Element typeName element) "Demo.Shelf" := by
  intro ends
  exact not_leadsBack_of_acc ends shelf_leads_back

/-- The members of a book are collected, and those of a shelf of shelves are not. -/
theorem shelf_of_shelves_fails :
    ¬shelved.LeadsBack "Demo.Book" ∧ shelved.LeadsBack "Demo.Shelf" ∧
      (∃ members, Engine.run bareWorld { registry := shelved }
        (Completion.reflectedMembers "Demo.Book" false) = (.ok members, { registry := shelved })) ∧
      Engine.run bareWorld { registry := shelved } (Completion.reflectedMembers "Demo.Shelf" false) =
        (.error .endlessElements, { registry := shelved }) := by
  obtain ⟨-, bookEnds, bookRuns⟩ :=
    members_end_unless_elements_lead_back [shelfOfShelves, singleBook] "Demo.Book"
  obtain ⟨-, -, shelfRuns⟩ :=
    members_end_unless_elements_lead_back [shelfOfShelves, singleBook] "Demo.Shelf"
  have apart : ¬shelved.LeadsBack "Demo.Book" := by
    rw [← bookEnds]
    constructor
    intro element isElement
    exact absurd isElement (book_has_no_elements element)
  obtain ⟨-, book, -⟩ := bookRuns bareWorld { registry := shelved } rfl
  obtain ⟨-, -, shelf⟩ := shelfRuns bareWorld { registry := shelved } rfl
  exact ⟨apart, shelf_leads_back, book apart, shelf shelf_leads_back⟩

end Registry

end TabCompletion
