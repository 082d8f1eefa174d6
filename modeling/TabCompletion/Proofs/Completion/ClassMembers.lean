import TabCompletion.Proofs.Completion.InferredClasses
import TabCompletion.Proofs.Completion.Members

/-!
What is offered for a class of the script. All its members are found, whatever way the classes of the
script inherit from each other; of the members with one name the first is listed if the word matches it,
and nothing is listed twice.
-/

namespace TabCompletion.Completion

open Wildcard

/-! Lists of members. -/

/-- A member as it is listed. -/
def MemberCandidate.shown (candidate : MemberCandidate) : Result :=
  Result.of candidate.text (if candidate.isMethod then .method else .property) candidate.name
    candidate.toolTip

/-- Properties come before methods, and each of them in strict order of their names. -/
def MemberCandidate.Precedes (a b : MemberCandidate) : Prop :=
  (a.isMethod = false ∧ b.isMethod = true) ∨
    (a.isMethod = b.isMethod ∧ Text.compare (Text.lower a.name) (Text.lower b.name) = .lt)

/-- Results come in strict order of their kinds and of what is listed. -/
def Precedes (a b : Result) : Prop :=
  a.kind.ctorIdx < b.kind.ctorIdx ∨
    (a.kind = b.kind ∧ Text.compare (Text.lower a.listItem) (Text.lower b.listItem) = .lt)

/-- The first member of a list whose name is this one in some letter case. -/
def firstNamed? (all : List MemberCandidate) (name : Text) : Option MemberCandidate :=
  all.find? fun candidate => Text.lower candidate.name == Text.lower name

/-- These are the members of a list that a pattern leaves: the first of each name if it matches that. -/
structure Merged (pattern : Pattern) (all listed : List MemberCandidate) : Prop where
  member : ∀ candidate, candidate ∈ listed ↔
    firstNamed? all candidate.name = some candidate ∧ pattern.test candidate.name = true
  offered : ∀ candidate ∈ all, ∃ first, firstNamed? all candidate.name = some first ∧
    (first ∈ listed ↔ pattern.test first.name = true)
  ascending : listed.Pairwise MemberCandidate.Precedes

/-- The members that are listed of all those that were found. -/
def listedMembers (pattern : Pattern) (all : List MemberCandidate) : List MemberCandidate :=
  arrangeMembers ((uniqueMembers all).filter fun candidate => pattern.test candidate.name)

/-- Members of one kind whose names differ are sorted strictly. -/
theorem sorted_ascending {members : List MemberCandidate} {isMethod : Bool}
    (distinct : (members.map fun candidate => Text.lower candidate.name).Nodup)
    (kind : ∀ candidate ∈ members, candidate.isMethod = isMethod) :
    (sortIgnoringCase (fun m : MemberCandidate => m.name) members).Pairwise
      MemberCandidate.Precedes := by
  have strict := sortIgnoringCase_strict (fun m : MemberCandidate => m.name) members distinct
  refine strict.imp_of_mem fun {a b} isFirst isSecond before => Or.inr ⟨?_, before⟩
  rw [kind a (mem_sortIgnoringCase.mp isFirst), kind b (mem_sortIgnoringCase.mp isSecond)]

theorem arranged_ascending {members : List MemberCandidate}
    (distinct : (members.map fun candidate => Text.lower candidate.name).Nodup) :
    (arrangeMembers members).Pairwise MemberCandidate.Precedes := by
  have part : ∀ p : MemberCandidate → Bool,
      ((members.filter p).map fun candidate => Text.lower candidate.name).Nodup :=
    fun p => distinct.sublist (List.filter_sublist.map _)
  have properties : ∀ candidate ∈ members.filter (!·.isMethod), candidate.isMethod = false :=
    fun candidate listed => by simpa using (List.mem_filter.mp listed).2
  have methods : ∀ candidate ∈ members.filter (·.isMethod), candidate.isMethod = true :=
    fun candidate listed => (List.mem_filter.mp listed).2
  refine List.pairwise_append.mpr ⟨sorted_ascending (part _) properties,
    sorted_ascending (part _) methods, fun a isFirst b isSecond => Or.inl ⟨?_, ?_⟩⟩
  · exact properties a (mem_sortIgnoringCase.mp isFirst)
  · exact methods b (mem_sortIgnoringCase.mp isSecond)

theorem mem_arrangeMembers {members : List MemberCandidate} {candidate : MemberCandidate} :
    candidate ∈ arrangeMembers members ↔ candidate ∈ members := by
  rw [arrangeMembers, List.mem_append, mem_sortIgnoringCase, mem_sortIgnoringCase, List.mem_filter,
    List.mem_filter, ← and_or_left]
  cases candidate.isMethod <;> simp

theorem mem_listedMembers {pattern : Pattern} {all : List MemberCandidate}
    {candidate : MemberCandidate} : candidate ∈ listedMembers pattern all ↔
      firstNamed? all candidate.name = some candidate ∧ pattern.test candidate.name = true := by
  rw [listedMembers, mem_arrangeMembers, List.mem_filter, uniqueMembers, mem_dedupeBy, firstNamed?]

/-- A member of a list is not without a first one of its name, and that is the first of its own. -/
theorem exists_firstNamed {all : List MemberCandidate} {candidate : MemberCandidate}
    (isFound : candidate ∈ all) : ∃ first, firstNamed? all candidate.name = some first ∧
      firstNamed? all first.name = some first := by
  obtain ⟨first, isFirst⟩ : ∃ first, firstNamed? all candidate.name = some first :=
    Option.isSome_iff_exists.mp (List.find?_isSome.mpr ⟨candidate, isFound, beq_self_eq_true _⟩)
  have same : Text.lower first.name = Text.lower candidate.name := by
    have found := List.find?_some isFirst
    exact beq_iff_eq.mp found
  refine ⟨first, isFirst, ?_⟩
  rw [firstNamed?, same]
  exact isFirst

/-- The first member of each name is listed if the pattern matches it, and nothing else. -/
theorem listedMembers_merged (pattern : Pattern) (all : List MemberCandidate) :
    Merged pattern all (listedMembers pattern all) where
  member := fun candidate => mem_listedMembers
  offered := by
    intro candidate isFound
    obtain ⟨first, isFirst, isOwn⟩ := exists_firstNamed isFound
    exact ⟨first, isFirst, mem_listedMembers.trans (and_iff_right isOwn)⟩
  ascending := arranged_ascending
    ((dedupeBy_distinct (fun m : MemberCandidate => Text.lower m.name) all).sublist
      (List.filter_sublist.map _))

/-- Members that have names are listed by their names. -/
theorem shown_precedes {a b : MemberCandidate} (first : a.name ≠ []) (second : b.name ≠ [])
    (precedes : a.Precedes b) : Precedes a.shown b.shown := by
  have shows : ∀ {m : MemberCandidate}, m.name ≠ [] → m.shown.listItem = m.name :=
    fun named => Result.listItem_of_filled named
  rcases precedes with ⟨isProperty, isMethod⟩ | ⟨sameKind, before⟩
  · left
    rw [MemberCandidate.shown, MemberCandidate.shown, isProperty, isMethod]
    exact (by decide : ResultKind.property.ctorIdx < ResultKind.method.ctorIdx)
  · right
    rw [shows first, shows second]
    refine ⟨?_, before⟩
    rw [MemberCandidate.shown, MemberCandidate.shown, sameKind]
    rfl

theorem shown_ascending {listed : List MemberCandidate}
    (ascending : listed.Pairwise MemberCandidate.Precedes) :
    ((listed.filter fun candidate => !candidate.name.isEmpty).map MemberCandidate.shown).Pairwise
      Precedes := by
  have filled : ∀ candidate ∈ listed.filter fun candidate => !candidate.name.isEmpty,
      candidate.name ≠ [] := by
    intro candidate isListed nameless
    have isNamed := (List.mem_filter.mp isListed).2
    rw [nameless] at isNamed
    cases isNamed
  exact List.pairwise_map.mpr ((ascending.sublist List.filter_sublist).imp_of_mem
    fun isFirst isSecond => shown_precedes (filled _ isFirst) (filled _ isSecond))

/-! Members of a class. -/

/-- A member that a class declares is asked for and may be seen at the cursor: a hidden one is seen
inside its class only. -/
structure Visible (c : Context) (isStatic : Bool) (definition : Node) (m : ClassMember) : Prop where
  declared : m ∈ definition.classMembers
  ordinary : m.isConstructor = false
  staticness : m.isStatic = isStatic
  shown : m.isHidden = true → c.currentType.any (·.same definition) = true

theorem mem_classMembers {r : Registry} {c : Context} {isStatic isOutermost : Bool}
    {definition : Node} {candidate : MemberCandidate} :
    candidate ∈ classMembers r c isStatic definition isOutermost ↔
      (∃ m, Visible c isStatic definition m ∧ candidate = classMemberCandidate r m) ∨
        (isStatic = true ∧ isOutermost = true ∧ definition.isClassDefinition = true) ∧
          candidate = constructorCandidate r definition := by
  rw [classMembers, List.mem_append]
  refine or_congr ?_ ?_
  · rw [List.mem_map]
    refine exists_congr fun m => and_congr ?_ eq_comm
    rw [List.mem_filter, Bool.and_eq_true, Bool.and_eq_true, Bool.not_eq_true', beq_iff_eq,
      Bool.or_eq_true, Bool.not_eq_true']
    constructor
    · rintro ⟨declared, ⟨ordinary, staticness⟩, shown⟩
      refine ⟨declared, ordinary, staticness, fun isHidden => shown.resolve_left fun isShown => ?_⟩
      rw [isHidden] at isShown
      cases isShown
    · rintro ⟨declared, ordinary, staticness, shown⟩
      refine ⟨declared, ⟨ordinary, staticness⟩, ?_⟩
      cases isHidden : m.isHidden with
      | false => exact Or.inl rfl
      | true => exact Or.inr (shown isHidden)
  · rw [← and_assoc, ← Bool.and_eq_true, ← Bool.and_eq_true]
    split
    · rename_i constructs
      rw [List.mem_singleton, constructs]
      simp
    · rename_i constructs
      simp [constructs]

/-- Lists that are related item by item: each item of the one list has its part in the other. -/
theorem exists_part {α β : Type} {related : α → β → Prop} {items : List α} {parts : List β}
    (all : List.Forall₂ related items parts) : ∀ item ∈ items, ∃ part ∈ parts, related item part := by
  induction all with
  | nil => exact fun item listed => absurd listed List.not_mem_nil
  | cons first _ ih =>
      intro item listed
      rcases List.mem_cons.mp listed with rfl | later
      · exact ⟨_, List.mem_cons_self, first⟩
      · obtain ⟨part, isPart, isRelated⟩ := ih item later
        exact ⟨part, List.mem_cons_of_mem _ isPart, isRelated⟩

section Class

variable (world : World) (state : EngineState) (c : Context) (isStatic : Bool) (definition : Node)

/-- A class is reached from the one that was asked for. -/
abbrev Reached (base : Node) : Prop :=
  LeadsTo (inferenceOf world state c) c.root? (.scriptClass definition) (.scriptClass base)

/-- Who gives a member: a class that was reached, the class itself its constructor, or a type that is
no class of the script and that a class which was reached is based on. -/
inductive Supplied : MemberCandidate → Prop where
  | declared {base m} : Reached world state c definition base → Visible c isStatic base m →
      Supplied (classMemberCandidate state.registry m)
  | constructor : isStatic = true → definition.isClassDefinition = true →
      Supplied (constructorCandidate state.registry definition)
  | implied {base candidate} : Reached world state c definition base → base.baseTypeNames = [] →
      candidate ∈ reflectedList state.registry state.attachments isStatic (impliedBase base) →
      Supplied candidate
  | foreign {base type candidate} : Reached world state c definition base →
      IsBasedOn (inferenceOf world state c) c.root? (.scriptClass base) type →
      (∀ other, type ≠ .scriptClass other) → Foreign world state isStatic type candidate →
      Supplied candidate

/-- These are all members that are found for a class, its own ones before the others. -/
structure FoundMembers (all : List MemberCandidate) : Prop where
  declared : ∀ base, Reached world state c definition base → ∀ m, Visible c isStatic base m →
    classMemberCandidate state.registry m ∈ all
  constructor : isStatic = true → definition.isClassDefinition = true →
    constructorCandidate state.registry definition ∈ all
  ownFirst : classMembers state.registry c isStatic definition true <+: all
  supplied : ∀ candidate ∈ all, Supplied world state c isStatic definition candidate

variable {world state c isStatic definition}

/-- What a class that is among the sources gives is found. -/
theorem mem_found {parts : List (List MemberCandidate)}
    (areParts : List.Forall₂ (SourcePart world c isStatic state)
      (sourcesOf world state c (.scriptClass definition)) parts)
    {base : Node} {isOutermost : Bool}
    (listed : .defined base isOutermost ∈ sourcesOf world state c (.scriptClass definition))
    {candidate : MemberCandidate}
    (given : candidate ∈ classMembers state.registry c isStatic base isOutermost) :
    candidate ∈ parts.flatten := by
  obtain ⟨part, isPart, rfl⟩ := exists_part areParts _ listed
  exact List.mem_flatten.mpr ⟨_, isPart, given⟩

/-- Whatever a source of a class gives is supplied for the class. -/
theorem supplied_of_source (inScript : c.InScript) (isNode : definition ∈ c.script.all)
    {source : MemberSource} (listed : source ∈ sourcesOf world state c (.scriptClass definition))
    {part : List MemberCandidate} (ofSource : SourcePart world c isStatic state source part)
    {candidate : MemberCandidate} (inPart : candidate ∈ part) :
    Supplied world state c isStatic definition candidate := by
  obtain ⟨type, isPending, reached, way, gives⟩ := source_reached listed
  obtain rfl := List.mem_singleton.mp isPending
  cases gives with
  | @defined base isOutermost =>
      have isPart : part = classMembers state.registry c isStatic base isOutermost := ofSource
      rw [isPart] at inPart
      rcases mem_classMembers.mp inPart with ⟨m, visible, rfl⟩ | ⟨⟨asked, isOuter, isClass⟩, rfl⟩
      · exact .declared way visible
      · -- Only the first source has its constructor.
        obtain ⟨others, isFirst, inner⟩ :=
          class_first (m := inferenceOf world state c) inScript isNode
        rw [isOuter, sourcesOf, isFirst] at listed
        rcases List.mem_cons.mp listed with same | later
        · cases same
          exact .constructor asked isClass
        · exact absurd later (inner base)
  | @described base nameless =>
      have isPart : part = reflectedList state.registry state.attachments isStatic
          (impliedBase base) := ofSource
      exact .implied way nameless (isPart ▸ inPart)
  | inferred other =>
      rcases Relation.ReflTransGen.cases_tail way with same | ⟨type, wayTo, based⟩
      · exact absurd same (other definition)
      · obtain ⟨base, rfl, named⟩ := based
        exact .foreign wayTo ⟨base, rfl, named⟩ other (ofSource candidate inPart)

/-- What the sources of a class give is what is found for it. -/
theorem sources_found (inScript : c.InScript) (isNode : definition ∈ c.script.all)
    {parts : List (List MemberCandidate)}
    (areParts : List.Forall₂ (SourcePart world c isStatic state)
      (sourcesOf world state c (.scriptClass definition)) parts) :
    FoundMembers world state c isStatic definition parts.flatten := by
  obtain ⟨others, isFirst, -⟩ := class_first (m := inferenceOf world state c) inScript isNode
  refine ⟨?_, ?_, ?_, ?_⟩
  · intro base reached m visible
    obtain ⟨isOutermost, listed⟩ := class_listed inScript isNode reached
    exact mem_found areParts listed (mem_classMembers.mpr (Or.inl ⟨m, visible, rfl⟩))
  · intro asked isClass
    have listed : .defined definition true ∈ sourcesOf world state c (.scriptClass definition) := by
      rw [sourcesOf, isFirst]
      exact List.mem_cons_self
    exact mem_found areParts listed (mem_classMembers.mpr (Or.inr ⟨⟨asked, rfl, isClass⟩, rfl⟩))
  · rw [sourcesOf, isFirst] at areParts
    cases areParts with
    | @cons _ own _ rest isOwn _ =>
        have isOwn : own = classMembers state.registry c isStatic definition true := isOwn
        rw [isOwn]
        exact List.prefix_append _ _
  · intro candidate isFound
    obtain ⟨part, isPart, inPart⟩ := List.mem_flatten.mp isFound
    obtain ⟨source, listed, ofSource⟩ := exists_part areParts.flip part isPart
    exact supplied_of_source inScript isNode listed ofSource inPart

/-- A member of the class itself is the first of its name. -/
theorem FoundMembers.own_first {all : List MemberCandidate}
    (found : FoundMembers world state c isStatic definition all) {name : Text} {m : MemberCandidate}
    (isOwn : firstNamed? (classMembers state.registry c isStatic definition true) name = some m) :
    firstNamed? all name = some m :=
  found.ownFirst.find?_eq_some isOwn

end Class

/-! Targets. -/

section Target

variable {world : World} {state : EngineState} {c : Context} {target : Node} {isStatic : Bool}

/-- A target stands for a class of the script: it is a type expression with the name of the class, and
then static members are asked for, or nothing is known of it but that class. -/
inductive StandsFor (world : World) (state : EngineState) (c : Context) (target : Node)
    (isStatic : Bool) : Node → Bool → Prop where
  | written {typeName definition} : target.typeExpression? = some typeName →
      (inferenceOf world state c).resolve typeName.fullName c.root? = .scriptClass definition →
      StandsFor world state c target isStatic definition true
  | inferred {definition} : target.typeExpression? = none →
      (∀ v, Evaluation.attempt c.scope target = .value v → v.isPresent = false) →
      (inferenceOf world state c).infer target = [.scriptClass definition] →
      StandsFor world state c target isStatic definition isStatic

/-- The class that a node of the script stands for is a node of the script. -/
theorem StandsFor.class_mem_all (inScript : c.InScript) (isNode : target ∈ c.script.all)
    {definition : Node} {asked : Bool}
    (stands : StandsFor world state c target isStatic definition asked) :
    definition ∈ c.script.all := by
  cases stands with
  | written _ resolved => exact Completion.class_mem_all inScript resolved
  | inferred _ _ known =>
      exact Inference.infer_known inScript.script isNode definition
        (known ▸ List.mem_singleton_self _)

theorem run_classTarget (plain : state.registry.Plain) {definition : Node} {asked : Bool}
    (stands : StandsFor world state c target isStatic definition asked) :
    ∃ parts after, Engine.run world state (targetMembers c target isStatic) =
        (.ok parts.flatten, after) ∧
      List.Forall₂ (SourcePart world c asked state)
        (sourcesOf world state c (.scriptClass definition)) parts := by
  cases stands with
  | @written typeName definition isWritten resolved =>
      obtain ⟨parts, after, ran, -, areParts⟩ :=
        run_inferredMembers c true plain (.scriptClass definition)
      refine ⟨parts, after, ?_, areParts⟩
      rw [targetMembers, run_inference, isWritten]
      dsimp only
      rw [resolved, ran]
  | inferred isOther isUnknown known =>
      obtain ⟨parts, after, ran, -, areParts⟩ :=
        run_inferredMembers c isStatic plain (.scriptClass definition)
      refine ⟨parts, after, ?_, areParts⟩
      have alone : Engine.run world state (membersOfTypes c isStatic [.scriptClass definition]) =
          (.ok parts.flatten, after) := by
        rw [membersOfTypes, collectLists, Engine.run_bind, ran, Engine.goOn_ok, collectLists,
          Engine.run_bind, Engine.run_pure, Engine.goOn_ok, List.append_nil, Engine.run_pure]
      rw [targetMembers, run_inference, isOther]
      dsimp only
      rw [known]
      split
      · rename_i v isValue
        rw [isUnknown v isValue, if_neg Bool.false_ne_true, alone]
      · exact alone

theorem run_members {pattern : Pattern} (compiled : Pattern.compile (c.word ++ "*") = .ok pattern)
    {all : List MemberCandidate} {after : EngineState}
    (found : Engine.run world state (targetMembers c target isStatic) = (.ok all, after)) :
    Engine.run world state (members c target isStatic) =
      (.ok ((listedMembers pattern all).map MemberCandidate.shown), after) := by
  rw [members, Engine.run_bind, found, Engine.goOn_ok, Engine.run_bind, run_pattern_ok compiled]
  rfl

theorem run_members_refused {error : PatternError}
    (refused : Pattern.compile (c.word ++ "*") = .error error) {all : List MemberCandidate}
    {after : EngineState}
    (found : Engine.run world state (targetMembers c target isStatic) = (.ok all, after)) :
    Engine.run world state (members c target isStatic) = (.error (.pattern error), after) := by
  rw [members, Engine.run_bind, found, Engine.goOn_ok, Engine.run_bind, Engine.pattern,
    compilePattern, refused]
  rfl

/-- Where no described type names a type of elements, the members of a target are found. Unless the
word is refused they are listed: the first of each name if the word matches it, in strict order of kinds
and names, and those that have names are listed by them. Where the target stands for a class of the
script, all its members are found: what it and the classes it leads to declare and what may be seen of
it, then its constructor, and otherwise only what the other types give that these are based on. -/
theorem class_members_offered {models : List TypeModel}
    (told : state.registry = Catalog.added models)
    (elementless : ∀ model ∈ models, model.elementType = none) (target : Node) (isStatic : Bool) :
    ∃ all after,
      Engine.run world state (targetMembers c target isStatic) = (.ok all, after) ∧
      (∀ error, Pattern.compile (c.word ++ "*") = .error error →
        Engine.run world state (members c target isStatic) = (.error (.pattern error), after)) ∧
      (∀ pattern, Pattern.compile (c.word ++ "*") = .ok pattern → ∃ listed,
        Engine.run world state (members c target isStatic) =
          (.ok (listed.map MemberCandidate.shown), after) ∧
        Merged pattern all listed ∧
        ((listed.filter fun candidate => !candidate.name.isEmpty).map
          MemberCandidate.shown).Pairwise Precedes) ∧
      (c.InScript → target ∈ c.script.all → ∀ definition asked,
        StandsFor world state c target isStatic definition asked →
        FoundMembers world state c asked definition all) := by
  have plain : state.registry.Plain :=
    told ▸ Registry.plain_added elementless Registry.plain_bundled
  obtain ⟨all, after, found⟩ := run_targetMembers c target isStatic plain
  refine ⟨all, after, found, fun error refused => run_members_refused refused found,
    fun pattern compiled => ?_, fun inScript isNode definition asked stands => ?_⟩
  · have merged := listedMembers_merged pattern all
    exact ⟨_, run_members compiled found, merged, shown_ascending merged.ascending⟩
  · obtain ⟨parts, after', found', areParts⟩ := run_classTarget plain stands
    rw [found] at found'
    cases found'
    exact sources_found inScript (stands.class_mem_all inScript isNode) areParts

end Target

/-! Two classes that inherit from each other and declare names with one lower-case form, of which the
word matches the second only. -/

section Crossed

def crossedSource : Text := "class A : B \x7b static $\u212A \x7d class B : A \x7b static $k \x7d [A]"

def crossedSpan (start stop : Nat) : Extent := .ofSource crossedSource start stop

def kelvinMember : Node := .mk 3 (crossedSpan 14 23) (.propertyMember "\u212A" none true false none)

def kMember : Node := .mk 6 (crossedSpan 40 49) (.propertyMember "k" none true false none)

/-- A class with one base class and one member. -/
def crossedClass (number start stop : Nat) (name base : Text) (m : Node) : Node :=
  .mk number (crossedSpan start stop) (.typeDefinition name true false
    [.mk (number + 1) (crossedSpan (start + 10) (start + 11))
      (.typeConstraint (.simple base (crossedSpan (start + 10) (start + 11))))] [m])

def classA : Node := crossedClass 1 0 25 "A" "B" kelvinMember

def classB : Node := crossedClass 4 26 51 "B" "A" kMember

def crossedTarget : Node :=
  .mk 9 (crossedSpan 52 55) (.typeExpression (.simple "A" (crossedSpan 53 54)))

def crossedStatement : Node :=
  .mk 7 (crossedSpan 52 55) (.pipeline [.mk 8 (crossedSpan 52 55)
    (.commandExpression crossedTarget [])])

def crossed : Node :=
  .mk 0 (crossedSpan 0 55) (.scriptBlock none [] [classA, classB, crossedStatement])

def crossedContext : Context :=
  { script := Script.ofTree crossedSource crossed, word := "k", related := [crossed] }

theorem crossed_inScript : crossedContext.InScript where
  script := ⟨crossedSource, crossed, true, rfl⟩
  related := by
    intro n isRelated
    obtain rfl := List.mem_singleton.mp isRelated
    exact Script.root_mem_all

theorem crossed_nodes : crossed.preorder =
    crossed :: classA :: (classA.children ++ (classB :: (classB.children ++ [crossedStatement,
      .mk 8 (crossedSpan 52 55) (.commandExpression crossedTarget []), crossedTarget]))) := by
  simp [Node.preorder_eq, crossed, classA, classB, crossedClass, kelvinMember, kMember,
    crossedStatement, crossedTarget, Node.children, Node.form, Form.children]

variable (m : Inference)

theorem crossed_resolve {definition : Node} (isClass : definition ∈ [classA, classB]) :
    m.resolve definition.className crossedContext.root? = .scriptClass definition := by
  have classes : crossed.preorder.filter (·.kind == .typeDefinition) = [classA, classB] := by
    rw [crossed_nodes]
    rfl
  rw [← classes] at isClass
  refine Inference.resolve_class ?_ isClass
  rw [classes]
  decide +kernel

variable (world : World) (state : EngineState)

theorem crossed_stands : StandsFor world state crossedContext crossedTarget true classA true :=
  .written rfl (crossed_resolve _ List.mem_cons_self)

theorem crossed_target_mem : crossedTarget ∈ crossedContext.script.all := by
  have isBelow : crossedTarget ∈ crossed.preorder := by
    rw [crossed_nodes]
    simp
  exact isBelow

theorem crossed_reached : Reached world state crossedContext classA classB :=
  .single ⟨classA, rfl, "B", List.mem_singleton_self _,
    (crossed_resolve _ (List.mem_cons_of_mem _ (List.mem_singleton_self classB))).symm⟩

/-- The member that the base class declares. -/
def kDeclared : ClassMember :=
  { name := "k", typeName := none, isStatic := true, isHidden := false, isMethod := false
    isConstructor := false, parameters := [] }

theorem k_visible : Visible crossedContext true classB kDeclared :=
  ⟨List.mem_singleton_self _, rfl, rfl, fun isHidden => nomatch isHidden⟩

/-- A type that the registry is told of, and the state in which it is known. -/
def box : TypeModel := { fullName := "Demo.Box", kind := .cls }

def boxed : EngineState := { registry := Catalog.added [box] }

/-- The member of the base class is found although the classes inherit from each other. -/
theorem crossed_members_found :
    ∃ pattern all listed after, Pattern.compile "k*" = .ok pattern ∧
      Engine.run bareWorld boxed (members crossedContext crossedTarget true) =
        (.ok (listed.map MemberCandidate.shown), after) ∧
      Merged pattern all listed ∧
      classMemberCandidate boxed.registry kDeclared ∈ all ∧
      constructorCandidate boxed.registry classA ∈ all := by
  have accepted : begins "k" "k" = true := by decide +kernel
  obtain ⟨pattern, compiled, -⟩ := begins_iff.mp accepted
  have elementless : ∀ model ∈ [box], model.elementType = none := List.forall_mem_singleton.mpr rfl
  obtain ⟨all, after, -, -, accordingly, found⟩ :=
    @class_members_offered bareWorld boxed crossedContext [box] rfl elementless crossedTarget true
  obtain ⟨listed, ran, merged, -⟩ := accordingly pattern compiled
  have ofClass := found crossed_inScript crossed_target_mem classA true (crossed_stands _ _)
  exact ⟨pattern, all, listed, after, compiled, ran, merged,
    ofClass.declared classB (crossed_reached _ _) _ k_visible, ofClass.constructor rfl rfl⟩

/-- Nothing is listed under the name of the member of the base class. -/
theorem crossed_name_missing :
    ∃ results after, Engine.run bareWorld {} (members crossedContext crossedTarget true) =
        (.ok results, after) ∧ ∀ r ∈ results, Text.lower r.listItem ≠ "k" := by
  have accepted : begins "k" "k" = true := by decide +kernel
  have emptyRefused : begins "k" [] = false := by decide +kernel
  have kelvinRefused : begins "k" "\u212A" = false := by decide +kernel
  obtain ⟨pattern, compiled, -⟩ := begins_iff.mp accepted
  have tested : ∀ t, pattern.test t = begins "k" t := fun t => by rw [begins, compiled]
  have plain : ({} : EngineState).registry.Plain := Registry.plain_bundled
  obtain ⟨parts, after, ran, areParts⟩ := run_classTarget plain (crossed_stands bareWorld {})
  have isNode := (crossed_stands bareWorld {}).class_mem_all crossed_inScript crossed_target_mem
  have ofClass := sources_found crossed_inScript isNode areParts
  have merged := listedMembers_merged pattern parts.flatten
  refine ⟨_, after, run_members compiled ran, fun r isResult isK => ?_⟩
  obtain ⟨m, isListed, rfl⟩ := List.mem_map.mp isResult
  obtain ⟨isFirst, matched⟩ := (merged.member m).mp isListed
  rw [tested] at matched
  have named : m.name ≠ [] := by
    intro nameless
    rw [nameless, emptyRefused] at matched
    cases matched
  rw [MemberCandidate.shown, Result.listItem_of_filled named] at isK
  -- The first member with this name is that of the class itself, spelled with another sign.
  have isKelvin : (Text.lower "\u212A" == Text.ofString "k") = true := by decide +kernel
  have own : firstNamed? (classMembers Registry.bundled crossedContext true classA true) m.name =
      some (propertyCandidate Registry.bundled "\u212A" "System.Object") := by
    rw [firstNamed?, isK]
    exact List.find?_cons_of_pos isKelvin
  have isOwn := Option.some.inj ((ofClass.own_first own).symm.trans isFirst)
  rw [← isOwn] at matched
  exact absurd (matched.symm.trans kelvinRefused) (by decide)

end Crossed

/-! A map with a key that is empty, which only a word with an escaped bar lets through. -/

section Keyed

def keyedSource : Text := "@\x7b'' = ''; '!' = ''\x7d"

def keyedText (number start stop : Nat) (value : Text) : Node :=
  .mk number (.ofSource keyedSource start stop) (.stringConstant value .singleQuoted)

def keyedValue (number start stop : Nat) : Node :=
  .mk number (.ofSource keyedSource start stop) (.pipeline
    [.mk (number + 1) (.ofSource keyedSource start stop)
      (.commandExpression (keyedText (number + 2) start stop []) [])])

def keyedTarget : Node := .mk 3 (.ofSource keyedSource 0 20) (.hashtable
  [(keyedText 4 2 4 [], keyedValue 5 7 9), (keyedText 8 11 14 "!", keyedValue 9 17 19)])

def keyed : Node := .mk 0 (.ofSource keyedSource 0 20) (.scriptBlock none []
  [.mk 1 (.ofSource keyedSource 0 20) (.pipeline
    [.mk 2 (.ofSource keyedSource 0 20) (.commandExpression keyedTarget [])])])

def keyedContext : Context :=
  { script := Script.ofTree keyedSource keyed, word := "*\x60|x", related := [keyed] }

/-- The key that is empty, and the one that is a mark. -/
def emptyKey : MemberCandidate := propertyCandidate .bundled [] "System.String" (some "''")

def markKey : MemberCandidate := propertyCandidate .bundled "!" "System.String" (some "'!'")

/-- The value of the map. -/
def keyedMap : Value := .map (.made 0) [(.text [], .text []), (.text "!", .text [])]

theorem run_keyed :
    ∃ others after, Engine.run bareWorld {} (targetMembers keyedContext keyedTarget false) =
      (.ok (emptyKey :: markKey :: others), after) := by
  have isOther : keyedTarget.typeExpression? = none := rfl
  have evaluated : Evaluation.attempt keyedContext.scope keyedTarget = .value keyedMap := rfl
  have keys : keyMembers Registry.bundled keyedMap = [emptyKey, markKey] := rfl
  obtain ⟨others, after, ran⟩ :=
    @run_valueMembers bareWorld {} false Registry.plain_bundled keyedMap
  rw [keys] at ran
  refine ⟨others, after, ?_⟩
  rw [targetMembers, run_inference, isOther]
  dsimp only
  rw [evaluated]
  exact ran

/-- Of two things in a list that is related pair by pair the one is related to the other. -/
theorem related_or_related {α : Type} {R : α → α → Prop} {items : List α} (pairs : items.Pairwise R)
    {a b : α} (isFirst : a ∈ items) (isSecond : b ∈ items) (apart : a ≠ b) : R a b ∨ R b a := by
  have symmetric : Std.Symm fun x y => R x y ∨ R y x := ⟨fun _ _ => Or.symm⟩
  have either : items.Pairwise fun x y => R x y ∨ R y x := pairs.imp Or.inl
  exact either.forall isFirst isSecond apart

/-- What is listed for the keys is not in order. -/
theorem keyed_disordered :
    ∃ results after, Engine.run bareWorld {} (members keyedContext keyedTarget false) =
        (.ok results, after) ∧ ¬results.Pairwise Precedes := by
  have accepted : begins "*\x60|x" [] = true := by decide +kernel
  have markAccepted : begins "*\x60|x" "!" = true := by decide +kernel
  obtain ⟨pattern, compiled, -⟩ := begins_iff.mp accepted
  have tested : ∀ t, pattern.test t = begins "*\x60|x" t := fun t => by rw [begins, compiled]
  obtain ⟨others, after, ran⟩ := run_keyed
  have merged := listedMembers_merged pattern (emptyKey :: markKey :: others)
  have emptyListed := (merged.member emptyKey).mpr ⟨rfl, (tested _).trans accepted⟩
  have markListed := (merged.member markKey).mpr ⟨rfl, (tested _).trans markAccepted⟩
  refine ⟨_, after, run_members compiled ran, fun inOrder => ?_⟩
  have both := merged.ascending.and (List.pairwise_map.mp inOrder)
  have apart : emptyKey ≠ markKey := fun same =>
    List.cons_ne_nil _ _ (congrArg MemberCandidate.name same).symm
  -- The empty key comes first by its name, and the mark by what is listed.
  rcases related_or_related both emptyListed markListed apart with ⟨-, shown⟩ | ⟨named, -⟩
  · rcases shown with lower | ⟨-, before⟩
    · exact absurd lower (by decide +kernel)
    · exact absurd before (by decide +kernel)
  · rcases named with ⟨-, isMethod⟩ | ⟨-, before⟩
    · cases isMethod
    · exact absurd before (by decide +kernel)

/-- A member that may be seen and that the word matches is not listed where another one with its name
was found before it, and what is listed for members without names is not in order. -/
theorem merged_and_nameless_members :
    (StandsFor bareWorld {} crossedContext crossedTarget true classA true ∧
      Reached bareWorld {} crossedContext classA classB ∧
      Visible crossedContext true classB kDeclared ∧
      begins crossedContext.word kDeclared.name = true ∧
      ∃ results after, Engine.run bareWorld {} (members crossedContext crossedTarget true) =
        (.ok results, after) ∧ ∀ r ∈ results, Text.lower r.listItem ≠ Text.lower kDeclared.name) ∧
    ∃ results after, Engine.run bareWorld {} (members keyedContext keyedTarget false) =
      (.ok results, after) ∧ ¬results.Pairwise Precedes :=
  ⟨⟨crossed_stands _ _, crossed_reached _ _, k_visible, by decide +kernel, crossed_name_missing⟩,
    keyed_disordered⟩

end Keyed

end TabCompletion.Completion
