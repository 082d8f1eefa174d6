import Mathlib.Logic.Relation
import TabCompletion.Completion.Cursor
import TabCompletion.Completion.Member
import TabCompletion.Proofs.Completion.Inferred
import TabCompletion.Proofs.Syntax.Numbering

/-!
Where the members of a class of the script come from. The walk over the base types comes to exactly
the classes that can be reached, whatever way they inherit from each other, and to each of the other
types that one of them names.
-/

namespace TabCompletion.Completion

section Walk

variable (m : Inference) (root : Option Node)

/-- A class of the script names a type as one of its base types. -/
def IsBasedOn (type base : InferredType) : Prop :=
  ∃ definition, type = .scriptClass definition ∧
    ∃ name ∈ definition.baseTypeNames, base = m.resolve name root

/-- A type can be reached from another one through base types. -/
def LeadsTo : InferredType → InferredType → Prop := Relation.ReflTransGen (IsBasedOn m root)

/-- The base type of a class or an enumeration that names none. -/
def impliedBase (definition : Node) : Text :=
  if definition.isEnumDefinition then "System.Enum" else "System.Object"

/-- A type that was reached gives members itself. -/
inductive Gives : InferredType → MemberSource → Prop where
  | defined {definition isOutermost} :
      Gives (.scriptClass definition) (.defined definition isOutermost)
  | described {definition} : definition.baseTypeNames = [] →
      Gives (.scriptClass definition) (.described (impliedBase definition))
  | inferred {type} : (∀ definition, type ≠ .scriptClass definition) → Gives type (.inferred type)

variable {m root} {unvisited : List Nat} {isOutermost : Bool} {pending : List InferredType}

/-- Every source is given by a type that a pending type leads to. -/
theorem source_reached {source : MemberSource}
    (listed : source ∈ memberSources m root unvisited isOutermost pending) :
    ∃ first ∈ pending, ∃ type, LeadsTo m root first type ∧ Gives type source := by
  fun_induction memberSources m root unvisited isOutermost pending with
  | case1 => cases listed
  | case2 unvisited isOutermost definition rest isOpen names others nameless ih =>
      rcases List.mem_cons.mp listed with rfl | listed
      · exact ⟨_, List.mem_cons_self, _, .refl, .defined⟩
      · rcases List.mem_cons.mp listed with rfl | later
        · exact ⟨_, List.mem_cons_self, _, .refl, .described (List.isEmpty_iff.mp nameless)⟩
        · obtain ⟨first, isPending, reached⟩ := ih later
          exact ⟨first, List.mem_cons_of_mem _ isPending, reached⟩
  | case3 unvisited isOutermost definition rest isOpen names others named ih =>
      rcases List.mem_cons.mp listed with rfl | later
      · exact ⟨_, List.mem_cons_self, _, .refl, .defined⟩
      · obtain ⟨first, isNext, type, leads, gives⟩ := ih later
        rcases List.mem_append.mp isNext with isBase | isPending
        · obtain ⟨name, isName, rfl⟩ := List.mem_map.mp isBase
          exact ⟨_, List.mem_cons_self, type, .head ⟨definition, rfl, name, isName, rfl⟩ leads, gives⟩
        · exact ⟨first, List.mem_cons_of_mem _ isPending, type, leads, gives⟩
  | case4 unvisited isOutermost definition rest isClosed ih =>
      obtain ⟨first, isPending, reached⟩ := ih listed
      exact ⟨first, List.mem_cons_of_mem _ isPending, reached⟩
  | case5 unvisited isOutermost type rest other ih =>
      rcases List.mem_cons.mp listed with rfl | later
      · exact ⟨type, List.mem_cons_self, type, .refl, .inferred fun definition => other definition⟩
      · obtain ⟨first, isPending, reached⟩ := ih later
        exact ⟨first, List.mem_cons_of_mem _ isPending, reached⟩

/-- No class behind the first one counts as the one that was asked for. -/
theorem inner_sources {definition : Node} :
    .defined definition true ∉ memberSources m root unvisited false pending := by
  generalize isInner : false = isOutermost
  fun_induction memberSources m root unvisited isOutermost pending with
  | case1 => exact List.not_mem_nil
  | case2 _ _ _ _ _ _ _ _ ih | case3 _ _ _ _ _ _ _ _ ih => subst isInner; simpa using ih rfl
  | case4 _ _ _ _ _ ih | case5 _ _ _ _ _ ih => simpa using ih isInner

/-- A class with this number is among the sources. -/
def Listed (sources : List MemberSource) (number : Nat) : Prop :=
  ∃ definition isOutermost, .defined definition isOutermost ∈ sources ∧ definition.id = number

theorem Listed.of_subset {sources more : List MemberSource} {number : Nat}
    (listed : Listed sources number) (part : sources ⊆ more) : Listed more number := by
  obtain ⟨definition, isOutermost, isSource, same⟩ := listed
  exact ⟨definition, isOutermost, part isSource, same⟩

variable (m root) in
/-- Every class that is pending or a base of a listed class is listed, unless it was met before. -/
structure Closed (unvisited : List Nat) (pending : List InferredType)
    (sources : List MemberSource) : Prop where
  pending : ∀ definition, .scriptClass definition ∈ pending → definition.id ∈ unvisited →
    Listed sources definition.id
  based : ∀ definition isFirst, .defined definition isFirst ∈ sources → ∀ base,
    IsBasedOn m root (.scriptClass definition) (.scriptClass base) → base.id ∈ unvisited →
    Listed sources base.id

/-- A class is taken while its bases and what was pending are still ahead. -/
theorem Closed.taken {first : Node} {rest next : List InferredType} {extra sources : List MemberSource}
    (closed : Closed m root (unvisited.erase first.id) next sources)
    (bases : ∀ base, IsBasedOn m root (.scriptClass first) (.scriptClass base) →
      .scriptClass base ∈ next)
    (ahead : rest ⊆ next) (foreign : ∀ definition isFirst, .defined definition isFirst ∉ extra) :
    Closed m root unvisited (.scriptClass first :: rest)
      (.defined first isOutermost :: (extra ++ sources)) := by
  have part : sources ⊆ .defined first isOutermost :: (extra ++ sources) :=
    List.subset_cons_of_subset _ (List.subset_append_right extra sources)
  have isTaken : Listed (.defined first isOutermost :: (extra ++ sources)) first.id :=
    ⟨first, isOutermost, List.mem_cons_self, rfl⟩
  -- A class that is open is still open, or is the one that is taken.
  have ofOpen : ∀ number ∈ unvisited, (number ∈ unvisited.erase first.id → Listed sources number) →
      Listed (.defined first isOutermost :: (extra ++ sources)) number := by
    intro number isOpen stillOpen
    by_cases same : number = first.id
    · exact same ▸ isTaken
    · exact (stillOpen ((List.mem_erase_of_ne same).mpr isOpen)).of_subset part
  constructor
  · intro definition isPending isOpen
    rcases List.mem_cons.mp isPending with same | later
    · cases same
      exact isTaken
    · exact ofOpen _ isOpen (closed.pending definition (ahead later))
  · intro definition isFirst isSource base based isOpen
    rcases List.mem_cons.mp isSource with same | isSource
    · cases same
      exact ofOpen _ isOpen (closed.pending base (bases base based))
    · have isSource := (List.mem_append.mp isSource).resolve_left (foreign definition isFirst)
      exact ofOpen _ isOpen (closed.based definition isFirst isSource base based)

theorem sources_closed :
    Closed m root unvisited pending (memberSources m root unvisited isOutermost pending) := by
  fun_induction memberSources m root unvisited isOutermost pending with
  | case1 =>
      exact ⟨fun _ isPending => absurd isPending List.not_mem_nil,
        fun _ _ isSource => absurd isSource List.not_mem_nil⟩
  | case2 unvisited isOutermost first rest isFree names others nameless ih =>
      refine @Closed.taken _ _ _ isOutermost first rest rest [_] _ ih ?_ (List.Subset.refl rest)
        (by simp)
      rintro base ⟨_, isClass, name, isName, -⟩
      cases isClass
      have baseless : first.baseTypeNames = [] := List.isEmpty_iff.mp nameless
      rw [baseless] at isName
      cases isName
  | case3 unvisited isOutermost first rest isFree names others named ih =>
      refine @Closed.taken _ _ _ isOutermost first rest _ [] _ ih ?_ (List.subset_append_right _ rest)
        (by simp)
      rintro base ⟨_, isClass, name, isName, isBase⟩
      cases isClass
      exact List.mem_append_left _ (List.mem_map.mpr ⟨name, isName, isBase.symm⟩)
  | case4 unvisited isOutermost first rest isClosed ih =>
      refine ⟨fun definition isPending isOpen => ?_, ih.based⟩
      rcases List.mem_cons.mp isPending with same | later
      · cases same
        exact absurd isOpen isClosed
      · exact ih.pending definition later isOpen
  | case5 unvisited isOutermost type rest other ih =>
      have part := List.subset_cons_self (MemberSource.inferred type)
        (memberSources m root unvisited isOutermost rest)
      constructor
      · intro definition isPending isOpen
        have later := (List.mem_cons.mp isPending).resolve_left fun same => other definition same.symm
        exact (ih.pending definition later isOpen).of_subset part
      · intro definition isFirst isSource base based isOpen
        have isSource := (List.mem_cons.mp isSource).resolve_left (by simp)
        exact (ih.based definition isFirst isSource base based isOpen).of_subset part

/-- A pending type that is no class of the script is listed. -/
theorem pending_listed {type : InferredType} (foreign : ∀ definition, type ≠ .scriptClass definition)
    (isPending : type ∈ pending) :
    .inferred type ∈ memberSources m root unvisited isOutermost pending := by
  fun_induction memberSources m root unvisited isOutermost pending with
  | case1 => cases isPending
  | case2 unvisited isOutermost first rest isOpen names others nameless ih =>
      have later := (List.mem_cons.mp isPending).resolve_left (foreign first)
      exact List.mem_cons_of_mem _ (List.mem_cons_of_mem _ (ih later))
  | case3 unvisited isOutermost first rest isOpen names others named ih =>
      have later := (List.mem_cons.mp isPending).resolve_left (foreign first)
      exact List.mem_cons_of_mem _ (ih (List.mem_append_right _ later))
  | case4 unvisited isOutermost first rest isClosed ih =>
      exact ih ((List.mem_cons.mp isPending).resolve_left (foreign first))
  | case5 unvisited isOutermost other rest isOther ih =>
      rcases List.mem_cons.mp isPending with rfl | later
      · exact List.mem_cons_self
      · exact List.mem_cons_of_mem _ (ih later)

/-- A type that a listed class is based on is listed if it is no class of the script itself. -/
theorem foreign_listed {definition : Node} {isFirst : Bool} {base : InferredType}
    (listed : .defined definition isFirst ∈ memberSources m root unvisited isOutermost pending)
    (based : IsBasedOn m root (.scriptClass definition) base)
    (foreign : ∀ other, base ≠ .scriptClass other) :
    .inferred base ∈ memberSources m root unvisited isOutermost pending := by
  obtain ⟨_, isClass, name, isName, rfl⟩ := based
  cases isClass
  fun_induction memberSources m root unvisited isOutermost pending with
  | case1 => cases listed
  | case2 unvisited isOutermost first rest isOpen names others nameless ih =>
      rcases List.mem_cons.mp listed with same | listed
      · cases same
        have baseless : definition.baseTypeNames = [] := List.isEmpty_iff.mp nameless
        rw [baseless] at isName
        cases isName
      · have later := (List.mem_cons.mp listed).resolve_left (by simp)
        exact List.mem_cons_of_mem _ (List.mem_cons_of_mem _ (ih later))
  | case3 unvisited isOutermost first rest isOpen names others named ih =>
      refine List.mem_cons_of_mem _ ?_
      rcases List.mem_cons.mp listed with same | later
      · cases same
        have isNext : m.resolve name root ∈ names.map (m.resolve · root) ++ rest :=
          List.mem_append_left _ (List.mem_map_of_mem isName)
        exact pending_listed foreign isNext
      · exact ih later
  | case4 unvisited isOutermost first rest isClosed ih => exact ih listed
  | case5 unvisited isOutermost other rest isOther ih =>
      have later := (List.mem_cons.mp listed).resolve_left (by simp)
      exact List.mem_cons_of_mem _ (ih later)

end Walk

end TabCompletion.Completion

namespace TabCompletion

/-! Classes of the script of a context. -/

/-- A name that resolves to a class is defined below the node from which it is looked up. -/
theorem Inference.resolve_below {m : Inference} {name : Text} {root : Option Node} {definition : Node}
    (resolved : m.resolve name root = .scriptClass definition) :
    ∃ top, root = some top ∧ definition ∈ top.preorder := by
  rw [resolve] at resolved
  split at resolved
  · rename_i found isFound
    cases resolved
    obtain ⟨top, isRoot, isBelow⟩ := Option.bind_eq_some_iff.mp isFound
    exact ⟨top, isRoot, List.mem_of_find?_eq_some isBelow⟩
  · split at resolved <;> cases resolved

/-- Where no two classes below a node have the same name, each of them is found by its name. -/
theorem Inference.resolve_class {m : Inference} {root definition : Node}
    (distinct : ((root.preorder.filter (·.kind == .typeDefinition)).map
      fun n => Text.lower n.className).Nodup)
    (isClass : definition ∈ root.preorder.filter (·.kind == .typeDefinition)) :
    m.resolve definition.className (some root) = .scriptClass definition := by
  have among : findClass? definition.className (some root) =
      (root.preorder.filter (·.kind == .typeDefinition)).find? fun n =>
        Text.lower n.className == Text.lower definition.className := by
    simp only [findClass?, Option.bind_some, List.find?_filter, Bool.decide_and, Bool.decide_eq_true]
  have isFound : ((root.preorder.filter (·.kind == .typeDefinition)).find? fun n =>
      Text.lower n.className == Text.lower definition.className).isSome :=
    List.find?_isSome.mpr ⟨definition, isClass, beq_self_eq_true _⟩
  obtain ⟨found, isFound⟩ := Option.isSome_iff_exists.mp isFound
  have same : Text.lower found.className = Text.lower definition.className := by
    simpa using List.find?_some isFound
  obtain rfl := List.inj_on_of_nodup_map distinct (List.mem_of_find?_eq_some isFound) isClass same
  rw [resolve, among, isFound]

/-- A context whose nodes are nodes of its script. -/
structure Context.InScript (c : Context) : Prop where
  script : ∃ source tree linked, c.script = Script.ofTree source tree linked
  related : ∀ n ∈ c.related, n ∈ c.script.all

namespace Context.InScript

variable {c : Context} (inScript : c.InScript)

include inScript

theorem id_mem_range {n : Node} (isNode : n ∈ c.script.all) :
    n.id ∈ List.range c.script.nodes.size := by
  obtain ⟨source, tree, linked, isScript⟩ := inScript.script
  have numbers := (tree.number_numbered 0).numbers
  rw [List.flatMap_singleton] at numbers
  have size := congrArg List.length numbers
  rw [List.length_map, List.length_range'] at size
  have isNumber : n.id ∈ c.script.all.map Node.id := List.mem_map_of_mem isNode
  rw [isScript, Script.all_ofTree, numbers, ← size, ← List.range_eq_range'] at isNumber
  rw [isScript]
  exact isNumber

theorem eq_of_id {n other : Node} (isNode : n ∈ c.script.all) (isOther : other ∈ c.script.all)
    (same : n.id = other.id) : n = other := by
  obtain ⟨source, tree, linked, isScript⟩ := inScript.script
  rw [isScript] at isNode isOther
  exact Script.eq_of_same isNode isOther (beq_iff_eq.mpr same)

end Context.InScript

namespace Completion

variable {m : Inference} {c : Context} (inScript : c.InScript)

include inScript

theorem class_mem_all {name : Text} {definition : Node}
    (resolved : m.resolve name c.root? = .scriptClass definition) : definition ∈ c.script.all := by
  obtain ⟨source, tree, linked, isScript⟩ := inScript.script
  obtain ⟨top, isRoot, isBelow⟩ := Inference.resolve_below resolved
  have isHead := (Option.filter_eq_some_iff.mp isRoot).1
  have isNode := inScript.related top (List.mem_of_head? isHead)
  rw [isScript] at isNode ⊢
  exact Node.mem_preorder_trans isNode isBelow

variable {first : Node} (isNode : first ∈ c.script.all)

include isNode

theorem reached_mem_all {definition : Node}
    (leads : LeadsTo m c.root? (.scriptClass first) (.scriptClass definition)) :
    definition ∈ c.script.all := by
  rcases Relation.ReflTransGen.cases_tail leads with same | ⟨-, -, -, -, name, -, isBase⟩
  · cases same
    exact isNode
  · exact class_mem_all inScript isBase.symm

/-- Every class that a class leads to is among the sources of its members. -/
theorem class_listed {definition : Node}
    (leads : LeadsTo m c.root? (.scriptClass first) (.scriptClass definition)) :
    ∃ isOutermost, .defined definition isOutermost ∈
      memberSources m c.root? (List.range c.script.nodes.size) true [.scriptClass first] := by
  have closed := @sources_closed m c.root? (List.range c.script.nodes.size) true [.scriptClass first]
  -- What is listed under the number of a node of the script is that node.
  have named : ∀ n ∈ c.script.all, Listed (memberSources m c.root?
      (List.range c.script.nodes.size) true [.scriptClass first]) n.id →
      ∃ isOutermost, .defined n isOutermost ∈ memberSources m c.root?
        (List.range c.script.nodes.size) true [.scriptClass first] := by
    rintro n isOther ⟨found, isOutermost, isSource, same⟩
    obtain ⟨type, isPending, _, way, gives⟩ := source_reached isSource
    obtain rfl := List.mem_singleton.mp isPending
    cases gives
    obtain rfl := inScript.eq_of_id (reached_mem_all inScript isNode way) isOther same
    exact ⟨isOutermost, isSource⟩
  refine named definition (reached_mem_all inScript isNode leads) ?_
  generalize isLast : InferredType.scriptClass definition = last at leads
  induction leads generalizing definition with
  | refl =>
      cases isLast
      exact closed.pending first List.mem_cons_self (inScript.id_mem_range isNode)
  | tail way based ih =>
      subst isLast
      obtain ⟨derived, rfl, name, isName, isBase⟩ := based
      obtain ⟨isOutermost, isSource⟩ := named derived (reached_mem_all inScript isNode way) (ih rfl)
      exact closed.based derived isOutermost isSource definition ⟨derived, rfl, name, isName, isBase⟩
        (inScript.id_mem_range (class_mem_all inScript isBase.symm))

/-- The class that was asked for is the first source. -/
theorem class_first : ∃ others, memberSources m c.root? (List.range c.script.nodes.size) true
    [.scriptClass first] = .defined first true :: others ∧
      ∀ definition, .defined definition true ∉ others := by
  rw [memberSources, dif_pos (inScript.id_mem_range isNode)]
  dsimp only
  split
  · exact ⟨_, rfl, fun definition listed => inner_sources ((List.mem_cons.mp listed).resolve_left
      (by simp))⟩
  · exact ⟨_, rfl, fun definition => inner_sources⟩

end Completion

end TabCompletion
