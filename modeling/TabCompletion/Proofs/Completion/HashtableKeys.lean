import TabCompletion.Completion.HashtableKey
import TabCompletion.Proofs.Completion.Members
import TabCompletion.Proofs.Syntax.Ancestors

/-!
The keys of a hashtable that is converted to a type. They are the properties that can be set on an
object of the type: those that its classes in the script show, whatever way these inherit from each
other, and those of the other types that one of them is based on. Of the properties with one name the
first that is found is listed, if the word starts it and no key with its name is written yet.
-/

namespace TabCompletion.Completion

open Wildcard

/-! Properties of a type. -/

/-- The property can be set on an object of a type: a class of the script that the type leads to
declares it, or it is a member of a described type to which it leads. -/
inductive Settable (m : Inference) (root : Option Node) (type : InferredType) : NamedType → Prop where
  | declared {definition member} : LeadsTo m root type (.scriptClass definition) →
      member ∈ definition.classMembers → member.isMethod = false → member.isStatic = false →
      member.isHidden = false →
      Settable m root type (member.name, member.typeName.getD "System.Object")
  | described {typeName member} : LeadsTo m root type (.reflected typeName) →
      member ∈ m.registry.getMembers typeName false → member.isPropertyLike = true →
      member.kind ≠ .event → member.settable ≠ some false → member.isHidden ≠ some true →
      Settable m root type (member.name, member.typeName.getD "System.Object")

theorem mem_shownProperties {definition : Node} {p : NamedType} :
    p ∈ shownProperties definition ↔ ∃ member ∈ definition.classMembers, member.isMethod = false ∧
      member.isStatic = false ∧ member.isHidden = false ∧
      (member.name, member.typeName.getD "System.Object") = p := by
  simp only [shownProperties, List.mem_map, List.mem_filter, Bool.and_eq_true, Bool.not_eq_true',
    and_assoc]

theorem mem_settableMembers {r : Registry} {typeName : Text} {p : NamedType} :
    p ∈ settableMembers r typeName ↔ ∃ member ∈ r.getMembers typeName false,
      member.isPropertyLike = true ∧ member.kind ≠ .event ∧ member.settable ≠ some false ∧
      member.isHidden ≠ some true ∧ (member.name, member.typeName.getD "System.Object") = p := by
  simp only [settableMembers, List.mem_map, List.mem_filter, Bool.and_eq_true, bne_iff_ne, and_assoc]

def sourceProperties (r : Registry) : MemberSource → List NamedType
  | .defined definition _ => shownProperties definition
  | .inferred (.reflected typeName) => settableMembers r typeName
  | _ => []

theorem class_of_leads {m : Inference} {root : Option Node} {type : InferredType} {definition : Node}
    (way : LeadsTo m root type (.scriptClass definition)) : ∃ first, type = .scriptClass first := by
  rcases Relation.ReflTransGen.cases_head way with same | ⟨-, ⟨first, isClass, -⟩, -⟩
  · exact ⟨definition, same⟩
  · exact ⟨first, isClass⟩

section Walk

variable {m : Inference} {c : Context} {child parent : Node} (inScript : c.InScript)
  (isRoot : c.root? = some c.script.root) (isParent : c.script.parent? child = some parent)
  (made : m.script = c.script)

include inScript isRoot isParent made

/-- A name is looked up below the root of the script, wherever in the script it is written. -/
theorem resolveAt_eq (name : Text) {n : Node} (isNode : n ∈ c.script.all) :
    m.resolveAt name n = m.resolve name c.root? := by
  have isBlock : c.script.root.kind = .scriptBlock :=
    beq_iff_eq.mp (Option.filter_eq_some_iff.mp isRoot).2
  rw [Inference.resolveAt, made, Script.rootOf_eq inScript.script isParent isBlock isNode, isRoot]

/-- The walk for properties comes to the same sources as the walk for members. -/
theorem settableProperties_eq {unvisited : List Nat} {isOutermost : Bool}
    {pending : List InferredType}
    (known : ∀ definition, .scriptClass definition ∈ pending → definition ∈ c.script.all) :
    settableProperties m unvisited pending =
      (memberSources m c.root? unvisited isOutermost pending).flatMap
        (sourceProperties m.registry) := by
  have bases : ∀ definition ∈ c.script.all,
      definition.baseTypeNames.map (m.resolveAt · definition) =
        definition.baseTypeNames.map (m.resolve · c.root?) := fun definition isNode =>
    List.map_congr_left fun name _ => resolveAt_eq inScript isRoot isParent made name isNode
  generalize isWhere : c.root? = root at bases
  -- Both walks open the same classes in the same order, so the induction is on the one for members.
  fun_induction memberSources m root unvisited isOutermost pending with
  | case1 => rw [settableProperties]; rfl
  | case2 unvisited isOutermost first rest isOpen names others nameless ih =>
      have isNode := known first List.mem_cons_self
      have baseless : first.baseTypeNames = [] := List.isEmpty_iff.mp nameless
      rw [settableProperties, dif_pos isOpen]
      dsimp only
      rw [baseless, List.map_nil, List.nil_append,
        ih (fun definition isPending => known definition (List.mem_cons_of_mem _ isPending))]
      rfl
  | case3 unvisited isOutermost first rest isOpen names others named ih =>
      have isNode := known first List.mem_cons_self
      rw [settableProperties, dif_pos isOpen]
      dsimp only
      rw [bases first isNode, ih]
      · rfl
      · intro definition isPending
        rcases List.mem_append.mp isPending with isBase | later
        · obtain ⟨name, -, isClass⟩ := List.mem_map.mp isBase
          exact class_mem_all inScript (isWhere ▸ isClass)
        · exact known definition (List.mem_cons_of_mem _ later)
  | case4 unvisited isOutermost first rest isClosed ih =>
      rw [settableProperties, dif_neg isClosed]
      exact ih fun definition isPending => known definition (List.mem_cons_of_mem _ isPending)
  | case5 unvisited isOutermost type rest other ih =>
      have later := ih fun definition isPending => known definition (List.mem_cons_of_mem _ isPending)
      cases type with
      | scriptClass definition => exact absurd rfl (other definition)
      | reflected typeName =>
          rw [settableProperties, later]
          rfl
      | cim nameSpace className =>
          rw [settableProperties, later]
          rfl

/-- What is found for a name is what can be set on an object of its type. -/
theorem mem_settableProperties (typeName : Text) (p : NamedType) :
    p ∈ settableProperties m (List.range c.script.nodes.size) [m.resolve typeName c.root?] ↔
      Settable m c.root? (m.resolve typeName c.root?) p := by
  have known : ∀ definition, .scriptClass definition ∈ [m.resolve typeName c.root?] →
      definition ∈ c.script.all := fun definition isPending =>
    class_mem_all inScript (List.mem_singleton.mp isPending).symm
  rw [@settableProperties_eq _ _ _ _ inScript isRoot isParent made _ true _ known, List.mem_flatMap]
  constructor
  · rintro ⟨source, isSource, given⟩
    obtain ⟨type, isPending, reached, way, gives⟩ := source_reached isSource
    obtain rfl := List.mem_singleton.mp isPending
    cases gives with
    | defined =>
        obtain ⟨member, declared, ordinary, instanced, seen, rfl⟩ := mem_shownProperties.mp given
        exact .declared way declared ordinary instanced seen
    | described nameless => cases given
    | inferred other =>
        cases reached with
        | scriptClass definition => exact absurd rfl (other definition)
        | reflected name =>
            obtain ⟨member, isMember, isProperty, noEvent, settable, seen, rfl⟩ :=
              mem_settableMembers.mp given
            exact .described way isMember isProperty noEvent settable seen
        | cim nameSpace className => cases given
  · intro settable
    cases settable with
    | @declared definition member way declared ordinary instanced seen =>
        obtain ⟨first, isClass⟩ := class_of_leads way
        rw [isClass] at way ⊢
        obtain ⟨isOutermost, listed⟩ := class_listed inScript (class_mem_all inScript isClass) way
        exact ⟨_, listed,
          mem_shownProperties.mpr ⟨member, declared, ordinary, instanced, seen, rfl⟩⟩
    | @described name member way isMember isProperty noEvent settable seen =>
        refine ⟨.inferred (.reflected name), ?_,
          mem_settableMembers.mpr ⟨member, isMember, isProperty, noEvent, settable, seen, rfl⟩⟩
        have foreign : ∀ definition, InferredType.reflected name ≠ .scriptClass definition :=
          fun _ same => nomatch same
        rcases Relation.ReflTransGen.cases_tail way with same | ⟨base, wayTo, based⟩
        · rw [← same]
          exact pending_listed foreign (List.mem_singleton_self _)
        · -- The last class on the way is listed, and names the type as a base.
          obtain ⟨definition, rfl, -⟩ := id based
          obtain ⟨first, isClass⟩ := class_of_leads wayTo
          rw [isClass] at wayTo ⊢
          obtain ⟨isOutermost, listed⟩ :=
            class_listed inScript (class_mem_all inScript isClass) wayTo
          exact foreign_listed listed based foreign

end Walk

/-- The properties that a class itself shows are found before all others. -/
theorem own_properties_first {m : Inference} {c : Context} (inScript : c.InScript) {typeName : Text}
    {definition : Node} (isClass : m.resolve typeName c.root? = .scriptClass definition) :
    shownProperties definition <+:
      settableProperties m (List.range c.script.nodes.size) [m.resolve typeName c.root?] := by
  have isOpen := inScript.id_mem_range (class_mem_all inScript isClass)
  rw [isClass, settableProperties, dif_pos isOpen]
  exact List.prefix_append _ _

/-! Keys. -/

/-- The first property of a list whose name is this one in some letter case. -/
def firstKey? (found : List NamedType) (name : Text) : Option NamedType :=
  found.find? fun p => Text.lower p.1 == Text.lower name

/-- A string that is a key of the hashtable is this name in some letter case, and the cursor is not on
it. -/
def IsWritten (hashtable : Node) (cursor : Int) (name : Text) : Prop :=
  ∃ pairs, hashtable.form = .hashtable pairs ∧ ∃ pair ∈ pairs, pair.1.extent.touches cursor = false ∧
    ∃ value, pair.1.stringConstant? = some value ∧ Text.lower value = Text.lower name

theorem mem_writtenKeys {hashtable : Node} {cursor : Int} {name : Text} :
    Text.lower name ∈ writtenKeys hashtable cursor ↔ IsWritten hashtable cursor name := by
  rw [writtenKeys, IsWritten]
  split
  · rename_i pairs isTable
    simp only [List.mem_filterMap, isTable, Form.hashtable.injEq, exists_eq_left']
    refine exists_congr fun pair => and_congr_right fun _ => ?_
    split
    · rename_i touched
      simp [touched]
    · rename_i untouched
      rw [Option.map_eq_some_iff]
      exact (and_iff_right (Bool.eq_false_iff.mpr untouched)).symm
  · rename_i other
    exact iff_of_false List.not_mem_nil fun ⟨pairs, isTable, _⟩ => other pairs isTable

/-- These are the properties of a list that are offered as keys for a pattern: the first of each name,
if the pattern matches it and it is not written yet. -/
structure OffersKeys (pattern : Pattern) (hashtable : Node) (cursor : Int)
    (found listed : List NamedType) : Prop where
  member : ∀ p, p ∈ listed ↔ firstKey? found p.1 = some p ∧ pattern.test p.1 = true ∧
    ¬IsWritten hashtable cursor p.1
  offered : ∀ p ∈ found, ∃ first, firstKey? found p.1 = some first ∧
    (first ∈ listed ↔ pattern.test first.1 = true ∧ ¬IsWritten hashtable cursor p.1)
  ascending : listed.Pairwise fun a b => Text.compare (Text.lower a.1) (Text.lower b.1) = .lt

def listedKeys (pattern : Pattern) (hashtable : Node) (cursor : Int) (found : List NamedType) :
    List NamedType :=
  (sortIgnoringCase Prod.fst (dedupeBy (fun p => Text.lower p.1) found)).filter fun p =>
    !(writtenKeys hashtable cursor).contains (Text.lower p.1) && pattern.test p.1

theorem mem_listedKeys {pattern : Pattern} {hashtable : Node} {cursor : Int}
    {found : List NamedType} {p : NamedType} :
    p ∈ listedKeys pattern hashtable cursor found ↔ firstKey? found p.1 = some p ∧
      pattern.test p.1 = true ∧ ¬IsWritten hashtable cursor p.1 := by
  rw [listedKeys, List.mem_filter, mem_sortIgnoringCase, mem_dedupeBy, firstKey?, Bool.and_eq_true,
    Bool.not_eq_true', List.contains_eq_mem, decide_eq_false_iff_not, mem_writtenKeys,
    and_comm (a := ¬_)]

theorem listedKeys_offered (pattern : Pattern) (hashtable : Node) (cursor : Int)
    (found : List NamedType) :
    OffersKeys pattern hashtable cursor found (listedKeys pattern hashtable cursor found) where
  member := fun _ => mem_listedKeys
  offered := by
    intro p isFound
    obtain ⟨first, isFirst⟩ : ∃ first, firstKey? found p.1 = some first :=
      Option.isSome_iff_exists.mp (List.find?_isSome.mpr ⟨p, isFound, beq_self_eq_true _⟩)
    have same : Text.lower first.1 = Text.lower p.1 := by
      have matched := List.find?_some isFirst
      exact beq_iff_eq.mp matched
    have isOwn : firstKey? found first.1 = some first := by
      rw [firstKey?, same]
      exact isFirst
    refine ⟨first, isFirst, mem_listedKeys.trans ((and_iff_right isOwn).trans ?_)⟩
    rw [← mem_writtenKeys, ← mem_writtenKeys, same]
  ascending := (sortIgnoringCase_strict Prod.fst _ (dedupeBy_distinct _ found)).sublist
    List.filter_sublist

/-! Runs. -/

section Run

variable {world : World} {state : EngineState} {c : Context} {hashtable conversion : Node}
  {typeName : Text}

def keyResult (r : Registry) (p : NamedType) : Result :=
  Result.of p.1 .property p.1 ("[" ++ r.getDisplayName p.2 ++ "] " ++ p.1)

/-- The properties that are found for the type of a name. -/
def propertiesFor (world : World) (state : EngineState) (c : Context) (typeName : Text) :
    List NamedType :=
  settableProperties (inferenceOf world state c) (List.range c.script.nodes.size)
    [(inferenceOf world state c).resolve typeName c.root?]

theorem typeKeys_eq_nil (m : Inference) (type : InferredType) :
    typeKeys m type = [] ↔ settableProperties m (List.range m.script.nodes.size) [type] = [] := by
  rw [typeKeys]
  dsimp only
  rw [List.map_eq_nil_iff]
  constructor
  · intro nothing
    refine List.eq_nil_iff_forall_not_mem.mpr fun p listed => ?_
    obtain ⟨kept, isKept, -⟩ := exists_mem_dedupeBy (fun p : NamedType => Text.lower p.1) listed
    have isSorted := (sortIgnoringCase_perm Prod.fst _).mem_iff.mpr isKept
    rw [nothing] at isSorted
    cases isSorted
  · intro nothing
    rw [nothing]
    exact sortIgnoringCase_nil Prod.fst

theorem typeKeys_filter (m : Inference) (type : InferredType) (pattern : Pattern) :
    ((typeKeys m type).filter fun k => !(writtenKeys hashtable c.cursor).contains (Text.lower k.name) &&
        pattern.test k.name).map (fun k => Result.of k.name .property k.name k.toolTip) =
      (listedKeys pattern hashtable c.cursor
        (settableProperties m (List.range m.script.nodes.size) [type])).map (keyResult m.registry) := by
  rw [typeKeys]
  dsimp only
  rw [List.filter_map, List.map_map]
  rfl

variable (isChild : c.script.parent? hashtable = some conversion)
  (converts : conversion.conversion? = some (typeName, hashtable))

include isChild converts

theorem keyCandidates_converted (m : Inference) (made : m.script = c.script) (root : Option Node) :
    keyCandidates m root hashtable = typeKeys m (m.resolve typeName root) := by
  rw [keyCandidates, made, isChild, Option.bind_some, converts, Option.filter_some,
    if_pos (show hashtable.same hashtable = true from beq_self_eq_true hashtable.id)]

/-- Without properties nothing is offered, and the word is not looked at. -/
theorem run_hashtableKeys :
    Engine.run world state (hashtableKeys c hashtable) =
      if propertiesFor world state c typeName = [] then (.ok [], state)
      else Engine.run world state (Engine.pattern (c.word ++ "*") >>= fun pattern =>
        return (listedKeys pattern hashtable c.cursor (propertiesFor world state c typeName)).map
          (keyResult state.registry)) := by
  rw [hashtableKeys, run_inference, keyCandidates_converted isChild converts _ rfl]
  dsimp only
  by_cases nothing : propertiesFor world state c typeName = []
  · rw [if_pos nothing, (typeKeys_eq_nil _ _).mpr nothing]
    rfl
  · have some : typeKeys (inferenceOf world state c)
        ((inferenceOf world state c).resolve typeName c.root?) ≠ [] :=
      mt (typeKeys_eq_nil _ _).mp nothing
    rw [if_neg nothing, if_neg (mt List.isEmpty_iff.mp some)]
    refine congrArg (fun next => Engine.run world state (Engine.pattern (c.word ++ "*") >>= next))
      (funext fun pattern => congrArg pure ?_)
    exact typeKeys_filter (inferenceOf world state c) _ pattern

theorem run_listedKeys (some : propertiesFor world state c typeName ≠ []) {pattern : Pattern}
    (compiled : Pattern.compile (c.word ++ "*") = .ok pattern) :
    Engine.run world state (hashtableKeys c hashtable) =
      (.ok ((listedKeys pattern hashtable c.cursor (propertiesFor world state c typeName)).map
        (keyResult state.registry)), state) := by
  rw [run_hashtableKeys isChild converts, if_neg some, Engine.run_bind, run_pattern_ok compiled]
  rfl

theorem run_refusedKeys (some : propertiesFor world state c typeName ≠ []) {error : PatternError}
    (refused : Pattern.compile (c.word ++ "*") = .error error) :
    Engine.run world state (hashtableKeys c hashtable) = (.error (.pattern error), state) := by
  rw [run_hashtableKeys isChild converts, if_neg some, Engine.run_bind, Engine.pattern,
    compilePattern, refused]
  rfl

/-- The properties that are found for a conversion are those that can be set on an object of its type,
those of a class itself before all others. If there are none nothing is offered; otherwise a word that is
refused is an error, and the first property of each name is offered if the word matches it and no key
with its name is written yet, in strict order of the names. -/
theorem hashtable_keys_offered (inScript : c.InScript) (isRoot : c.root? = some c.script.root) :
    (∀ p, p ∈ propertiesFor world state c typeName ↔
      Settable (inferenceOf world state c) c.root?
        ((inferenceOf world state c).resolve typeName c.root?) p) ∧
    (∀ definition, (inferenceOf world state c).resolve typeName c.root? = .scriptClass definition →
      shownProperties definition <+: propertiesFor world state c typeName) ∧
    (propertiesFor world state c typeName = [] →
      Engine.run world state (hashtableKeys c hashtable) = (.ok [], state)) ∧
    (propertiesFor world state c typeName ≠ [] →
      (∀ error, Pattern.compile (c.word ++ "*") = .error error →
        Engine.run world state (hashtableKeys c hashtable) = (.error (.pattern error), state)) ∧
      ∀ pattern, Pattern.compile (c.word ++ "*") = .ok pattern → ∃ listed,
        Engine.run world state (hashtableKeys c hashtable) =
          (.ok (listed.map (keyResult state.registry)), state) ∧
        OffersKeys pattern hashtable c.cursor (propertiesFor world state c typeName) listed) := by
  refine ⟨?_, ?_, fun nothing => ?_, fun some => ⟨?_, fun pattern compiled => ?_⟩⟩
  · exact mem_settableProperties (m := inferenceOf world state c) inScript isRoot isChild rfl typeName
  · exact fun definition isClass => own_properties_first inScript isClass
  · rw [run_hashtableKeys isChild converts, if_pos nothing]
  · exact fun error refused => run_refusedKeys isChild converts some refused
  · exact ⟨_, run_listedKeys isChild converts some compiled, listedKeys_offered pattern hashtable _ _⟩

end Run

/-! Two classes that inherit from each other. The names of one property of each have one lower-case form,
and a property of the first is written already. -/

section Tied

def tiedSource : Text :=
  "class A : B \x7b $Size; $\u212A \x7d class B : A \x7b $k; $Name \x7d [A]@\x7bSize = ''\x7d"

def tiedSpan (start stop : Nat) : Extent := .ofSource tiedSource start stop

def tiedProperty (number start stop : Nat) (name : Text) : Node :=
  .mk number (tiedSpan start stop) (.propertyMember name none false false none)

def tiedClass (number start stop : Nat) (name base : Text) (members : List Node) : Node :=
  .mk number (tiedSpan start stop) (.typeDefinition name true false
    [.mk (number + 1) (tiedSpan (start + 10) (start + 11))
      (.typeConstraint (.simple base (tiedSpan (start + 10) (start + 11))))] members)

def tiedA : Node :=
  tiedClass 1 0 25 "A" "B" [tiedProperty 3 14 19 "Size", tiedProperty 4 21 23 "\u212A"]

def tiedB : Node :=
  tiedClass 5 26 51 "B" "A" [tiedProperty 7 40 42 "k", tiedProperty 8 44 49 "Name"]

def tiedTable : Node := .mk 13 (tiedSpan 55 67) (.hashtable
  [(.mk 14 (tiedSpan 57 61) (.stringConstant "Size" .bareWord),
    .mk 15 (tiedSpan 64 66) (.pipeline [.mk 16 (tiedSpan 64 66)
      (.commandExpression (.mk 17 (tiedSpan 64 66) (.stringConstant [] .singleQuoted)) [])]))])

def tiedConversion : Node := .mk 11 (tiedSpan 52 67) (.convert
  (.mk 12 (tiedSpan 52 55) (.typeConstraint (.simple "A" (tiedSpan 53 54)))) tiedTable)

def tiedStatement : Node := .mk 9 (tiedSpan 52 67) (.pipeline
  [.mk 10 (tiedSpan 52 67) (.commandExpression tiedConversion [])])

def tied : Node := .mk 0 (tiedSpan 0 67) (.scriptBlock none [] [tiedA, tiedB, tiedStatement])

def untyped (name : Text) : NamedType := (name, "System.Object")

def tiedContext (word : Text) : Context :=
  { script := Script.ofTree tiedSource tied, word, related := [tied] }

theorem tied_inScript (word : Text) : (tiedContext word).InScript where
  script := ⟨tiedSource, tied, true, rfl⟩
  related := by
    intro n isRelated
    obtain rfl := List.mem_singleton.mp isRelated
    exact Script.root_mem_all

theorem tied_nodes : tied.preorder =
    tied :: tiedA :: (tiedA.children ++ (tiedB :: (tiedB.children ++ tiedStatement.preorder))) := by
  simp [Node.preorder_eq, tied, tiedA, tiedB, tiedClass, tiedProperty, Node.children, Node.form,
    Form.children]

theorem tied_statement : tiedStatement.preorder =
    tiedStatement :: .mk 10 (tiedSpan 52 67) (.commandExpression tiedConversion []) ::
      tiedConversion :: (tiedConversion.children ++ tiedTable.children ++
        [.mk 16 (tiedSpan 64 66) (.commandExpression
          (.mk 17 (tiedSpan 64 66) (.stringConstant [] .singleQuoted)) []),
          .mk 17 (tiedSpan 64 66) (.stringConstant [] .singleQuoted)]) := by
  simp [Node.preorder_eq, tiedStatement, tiedConversion, tiedTable, Node.children, Node.form,
    Form.children]

theorem tied_links : tied.parentLinks =
    [(1, 0), (5, 0), (9, 0), (2, 1), (3, 1), (4, 1), (6, 5), (7, 5), (8, 5), (10, 9), (11, 10), (12, 11),
      (13, 11), (14, 13), (15, 13), (16, 15), (17, 16)] := by
  rw [Node.parentLinks, tied_nodes, tied_statement]
  rfl

theorem tied_parent (word : Text) :
    (tiedContext word).script.parent? tiedTable = some tiedConversion := by
  have isConversion : tiedConversion ∈ tied.preorder := by
    rw [tied_nodes, tied_statement]
    simp
  have isTable : tiedTable ∈ tied.preorder :=
    Node.mem_preorder_child isConversion (List.mem_cons_of_mem _ (List.mem_singleton_self _))
  have other : tiedTable ≠ tied := fun same => absurd (congrArg Node.id same) (by decide)
  obtain ⟨parent, isNode, isChild, -, found⟩ :=
    @Script.parent?_linked tiedSource tied tiedTable isTable other
  have isLink : (tiedTable.id, parent.id) ∈ tied.parentLinks :=
    Node.mem_parentLinks.mpr ⟨parent, isNode, tiedTable, isChild, rfl, rfl⟩
  have isNumber : parent.id = tiedConversion.id := by
    rw [tied_links] at isLink
    simpa [tiedTable, tiedConversion, Node.id] using isLink
  obtain rfl := @Script.eq_of_same tiedSource tied true _ _ isNode isConversion (beq_iff_eq.mpr isNumber)
  exact found

theorem tied_resolve {definition : Node} (isClass : definition ∈ [tiedA, tiedB]) (m : Inference)
    (word : Text) :
    m.resolve definition.className (tiedContext word).root? = .scriptClass definition := by
  have classes : tied.preorder.filter (·.kind == .typeDefinition) = [tiedA, tiedB] := by
    rw [tied_nodes, tied_statement]
    rfl
  rw [← classes] at isClass
  refine Inference.resolve_class ?_ isClass
  rw [classes]
  decide +kernel

theorem tied_found (word : Text) : propertiesFor bareWorld {} (tiedContext word) "A" =
    [untyped "Size", untyped "\u212A", untyped "k", untyped "Name"] := by
  have inScript := tied_inScript word
  have ofA : (inferenceOf bareWorld {} (tiedContext word)).resolve "A" (tiedContext word).root? =
      .scriptClass tiedA := tied_resolve List.mem_cons_self _ word
  have ofB : (inferenceOf bareWorld {} (tiedContext word)).resolve "B" (tiedContext word).root? =
      .scriptClass tiedB :=
    tied_resolve (List.mem_cons_of_mem _ (List.mem_singleton_self tiedB)) _ word
  have isA : tiedA ∈ (tiedContext word).script.all := class_mem_all inScript ofA
  have isB : tiedB ∈ (tiedContext word).script.all := class_mem_all inScript ofB
  have lookup := fun name n isNode => resolveAt_eq (m := inferenceOf bareWorld {} (tiedContext word))
    inScript rfl (tied_parent word) rfl name (n := n) isNode
  have open₅ : tiedB.id ∈ (List.range (tiedContext word).script.nodes.size).erase tiedA.id :=
    (List.mem_erase_of_ne (by decide)).mpr (inScript.id_mem_range isB)
  have closed₁ : tiedA.id ∉ ((List.range (tiedContext word).script.nodes.size).erase tiedA.id).erase
      tiedB.id := fun listed => List.nodup_range.not_mem_erase (List.mem_of_mem_erase listed)
  rw [propertiesFor, ofA, settableProperties, dif_pos (inScript.id_mem_range isA)]
  dsimp only
  have basesA : tiedA.baseTypeNames = (["B"] : List Text) := rfl
  have basesB : tiedB.baseTypeNames = (["A"] : List Text) := rfl
  rw [basesA, List.map_singleton, lookup _ _ isA, ofB, List.singleton_append,
    settableProperties, dif_pos open₅]
  dsimp only
  rw [basesB, List.map_singleton, lookup _ _ isB, ofA, List.singleton_append,
    settableProperties, dif_neg closed₁, settableProperties]
  rfl

theorem tied_some (word : Text) : propertiesFor bareWorld {} (tiedContext word) "A" ≠ [] := by
  rw [tied_found]
  exact List.cons_ne_nil _ _

/-- Of the two properties that one lower-case name stands for, that of the class itself is the first. -/
theorem tied_first {word name : Text} (isK : Text.lower name = "k") :
    firstKey? (propertiesFor bareWorld {} (tiedContext word) "A") name = some (untyped "\u212A") := by
  rw [tied_found, firstKey?, isK, List.find?_cons_of_neg (by decide +kernel),
    List.find?_cons_of_pos (by decide +kernel)]

theorem tied_settable (word : Text) {p : NamedType}
    (isFound : p ∈ propertiesFor bareWorld {} (tiedContext word) "A") :
    Settable (inferenceOf bareWorld {} (tiedContext word)) (tiedContext word).root?
      ((inferenceOf bareWorld {} (tiedContext word)).resolve "A" (tiedContext word).root?) p :=
  (mem_settableProperties (m := inferenceOf bareWorld {} (tiedContext word)) (tied_inScript word) rfl
    (tied_parent word) rfl "A" p).mp isFound

/-- The class can be set a property that the word matches and that is not written, but nothing is
offered for it: the first property of its name is spelled with another sign. -/
theorem merged_key_missing :
    ((tiedContext "k").InScript ∧
      (tiedContext "k").root? = some (tiedContext "k").script.root ∧
      (tiedContext "k").script.parent? tiedTable = some tiedConversion ∧
      tiedConversion.conversion? = some (("A" : Text), tiedTable)) ∧
    (Settable (inferenceOf bareWorld {} (tiedContext "k")) (tiedContext "k").root?
        ((inferenceOf bareWorld {} (tiedContext "k")).resolve "A" (tiedContext "k").root?) (untyped "k") ∧
      begins "k" "k" = true ∧ ¬IsWritten tiedTable (tiedContext "k").cursor "k") ∧
    ∃ results after,
      Engine.run bareWorld {} (hashtableKeys (tiedContext "k") tiedTable) = (.ok results, after) ∧
      ∀ r ∈ results, Text.lower r.text ≠ "k" := by
  have accepted : begins "k" "k" = true := by decide +kernel
  have kelvinRefused : begins "k" "\u212A" = false := by decide +kernel
  obtain ⟨pattern, compiled, -⟩ := begins_iff.mp accepted
  have tested : ∀ t, pattern.test t = begins "k" t := fun t => by rw [begins, compiled]
  have converts : tiedConversion.conversion? = some (("A" : Text), tiedTable) := rfl
  have isFound : untyped "k" ∈ propertiesFor bareWorld {} (tiedContext "k") "A" := by
    rw [tied_found]
    simp
  have unwritten : ¬IsWritten tiedTable (tiedContext "k").cursor "k" := by
    rw [← mem_writtenKeys]
    decide +kernel
  refine ⟨⟨tied_inScript "k", rfl, tied_parent "k", converts⟩,
    ⟨tied_settable "k" isFound, accepted, unwritten⟩, _, _,
    run_listedKeys (tied_parent "k") converts (tied_some "k") compiled, ?_⟩
  intro r isResult isK
  obtain ⟨p, isListed, rfl⟩ := List.mem_map.mp isResult
  obtain ⟨isFirst, matched, -⟩ := mem_listedKeys.mp isListed
  obtain rfl := Option.some.inj ((tied_first isK).symm.trans isFirst)
  rw [tested] at matched
  exact Bool.false_ne_true (kelvinRefused.symm.trans matched)

/-- For an empty word the property of the base class is offered, and that which is written is not. -/
theorem tied_keys_offered : ∃ listed : List NamedType,
    Engine.run bareWorld {} (hashtableKeys (tiedContext []) tiedTable) =
      (.ok (listed.map (keyResult Registry.bundled)), {}) ∧
    untyped "Name" ∈ listed ∧ untyped "Size" ∉ listed := by
  have accepted : begins [] "Name" = true := by decide +kernel
  obtain ⟨pattern, compiled, matched⟩ := begins_iff.mp accepted
  obtain ⟨-, -, -, offers⟩ := @hashtable_keys_offered bareWorld {} (tiedContext []) tiedTable
    tiedConversion "A" (tied_parent []) rfl (tied_inScript []) rfl
  obtain ⟨listed, ran, offered⟩ := (offers (tied_some [])).2 pattern compiled
  refine ⟨listed, ran, (offered.member _).mpr ⟨?_, matched, ?_⟩, fun isListed => ?_⟩
  · rw [tied_found]
    decide +kernel
  · rw [← mem_writtenKeys]
    decide +kernel
  · have unwritten := ((offered.member _).mp isListed).2.2
    rw [← mem_writtenKeys] at unwritten
    exact unwritten (by decide +kernel)

end Tied

end TabCompletion.Completion
