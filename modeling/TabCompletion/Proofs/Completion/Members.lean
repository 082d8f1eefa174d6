import TabCompletion.Proofs.Cim.Request
import TabCompletion.Proofs.Completion.ClassSources
import TabCompletion.Proofs.Completion.Offered
import TabCompletion.Proofs.Types.Elements

/-!
Members of a target. Every lookup gives an answer and leaves the types as they are, so the members of
a class of the script are those that it and the classes it leads to declare, its constructor, and those
of the other types that these are based on. Of members with one name the first found is kept, whatever
its spelling, and what is kept is listed in strict order.
-/

namespace TabCompletion.Completion

open Cim (classKey reach)

/-! What a lookup leaves behind. -/

/-- A class of a server that is kept under a key, or that the server tells for it. -/
def KnownClass (world : World) (state : EngineState) (key : Text) (info : Cim.ClassInfo) : Prop :=
  Assoc.get? state.cim.classes key = some info ∨
    ∃ nameSpace className, classKey nameSpace className = key ∧
      reach world.cim (·.classInfo nameSpace className) = some (some info)

/-- A state has the types of another one and keeps no class that was not known there. -/
structure Follows (world : World) (state after : EngineState) : Prop where
  registry : after.registry = state.registry
  attachments : after.attachments = state.attachments
  classes : ∀ key info, Assoc.get? after.cim.classes key = some info → KnownClass world state key info

section Runs

variable {world : World} {state middle after : EngineState}

theorem Follows.refl : Follows world state state := ⟨rfl, rfl, fun _ _ kept => Or.inl kept⟩

theorem KnownClass.before {key : Text} {info : Cim.ClassInfo} (follows : Follows world state after)
    (known : KnownClass world after key info) : KnownClass world state key info := by
  rcases known with kept | told
  · exact follows.classes key info kept
  · exact Or.inr told

theorem Follows.trans (first : Follows world state middle) (next : Follows world middle after) :
    Follows world state after :=
  ⟨next.registry.trans first.registry, next.attachments.trans first.attachments,
    fun key info kept => (next.classes key info kept).before first⟩

theorem follows_served (served : Cim.Served state after) : Follows world state after := by
  cases served with
  | unopened | closed => exact ⟨rfl, rfl, fun _ _ kept => Or.inl kept⟩

/-- A request for a class gives an answer, and what it gives was known or is told. -/
theorem run_classInfo (world : World) (state : EngineState) (session : Option Session)
    (nameSpace className : Text) :
    ∃ found after, Engine.run world state (Cim.classInfo session nameSpace className) =
        (.ok found, after) ∧ Follows world state after ∧
      ∀ info, found = some info → KnownClass world state (classKey nameSpace className) info := by
  have found := Cim.classInfo_found world session state nameSpace className
  generalize Engine.run world state (Cim.classInfo session nameSpace className) = ran at found ⊢
  cases found with
  | recalled kept => exact ⟨_, _, rfl, .refl, fun info same => Or.inl (same ▸ kept)⟩
  | stopped => exact ⟨_, _, rfl, follows_served (.unopened _), fun info same => nomatch same⟩
  | @kept info after absent quiet told served =>
      have isTold : KnownClass world state (classKey nameSpace className) info :=
        Or.inr ⟨_, _, rfl, told⟩
      have follows : Follows world state after := follows_served served
      refine ⟨_, _, rfl, ⟨follows.registry, follows.attachments, fun key other kept => ?_⟩,
        fun other same => Option.some.inj same ▸ isTold⟩
      simp only [Cim.learning, Cim.keepClass, Assoc.get?_set] at kept
      split at kept
      · rename_i isKey
        cases kept
        exact isKey ▸ isTold
      · exact follows.classes key other kept
  | missing _ _ served => exact ⟨_, _, rfl, follows_served served, fun info same => nomatch same⟩

/-! Members of described types. -/

/-- The members of a described type and, for an array, of its elements. -/
def reflectedList (r : Registry) (a : Attachments) (isStatic : Bool) (typeName : Text) :
    List MemberCandidate :=
  if isStatic then declaredMembers r a true typeName
  else ((r.elementChain? (r.elementBound typeName) typeName).getD []).flatMap
    (declaredMembers r a false)

theorem run_reflectedMembers_static (typeName : Text) :
    Engine.run world state (reflectedMembers typeName true) =
      (.ok (declaredMembers state.registry state.attachments true typeName), state) := rfl

theorem run_reflectedMembers_instance (typeName : Text) :
    Engine.run world state (reflectedMembers typeName false) =
      match state.registry.elementChain? (state.registry.elementBound typeName) typeName with
      | some chain => (.ok (chain.flatMap (declaredMembers state.registry state.attachments false)), state)
      | none => (.error .endlessElements, state) := by
  rw [reflectedMembers, Engine.run_bind, Engine.run_get, Engine.goOn_ok]
  dsimp only
  rw [if_neg Bool.false_ne_true]
  cases state.registry.elementChain? (state.registry.elementBound typeName) typeName <;> rfl

theorem run_reflectedMembers (plain : state.registry.Plain) (typeName : Text) (isStatic : Bool) :
    Engine.run world state (reflectedMembers typeName isStatic) =
      (.ok (reflectedList state.registry state.attachments isStatic typeName), state) := by
  obtain ⟨chain, ends⟩ := Option.isSome_iff_exists.mp (Registry.elementChain?_ends plain typeName)
  rw [reflectedList]
  cases isStatic with
  | true => exact run_reflectedMembers_static typeName
  | false =>
      rw [run_reflectedMembers_instance, if_neg Bool.false_ne_true, ends]
      rfl

/-- A member that a type has which is no class of the script. -/
inductive Foreign (world : World) (state : EngineState) (isStatic : Bool) :
    InferredType → MemberCandidate → Prop where
  | reflected {typeName candidate} :
      candidate ∈ reflectedList state.registry state.attachments isStatic typeName →
      Foreign world state isStatic (.reflected typeName) candidate
  | collection {typeName candidate} : isStatic = false →
      state.registry.isEnumerable typeName = true → candidate ∈ collectionMethods →
      Foreign world state isStatic (.reflected typeName) candidate
  | property {nameSpace className info p} :
      KnownClass world state (classKey nameSpace className) info → p ∈ info.properties →
      Foreign world state isStatic (.cim nameSpace className)
        (propertyCandidate state.registry p.name p.type)
  | ofInstance {nameSpace className candidate} :
      candidate ∈ reflectedList state.registry state.attachments isStatic Cim.instanceType →
      Foreign world state isStatic (.cim nameSpace className) candidate

theorem Foreign.before {isStatic : Bool} {type : InferredType} {candidate : MemberCandidate}
    (follows : Follows world state after) (foreign : Foreign world after isStatic type candidate) :
    Foreign world state isStatic type candidate := by
  cases foreign with
  | reflected listed =>
      rw [follows.registry, follows.attachments] at listed
      exact .reflected listed
  | collection isInstance enumerable listed =>
      rw [follows.registry] at enumerable
      exact .collection isInstance enumerable listed
  | property known listed =>
      rw [follows.registry]
      exact .property (known.before follows) listed
  | ofInstance listed =>
      rw [follows.registry, follows.attachments] at listed
      exact .ofInstance listed

theorem run_foreignMembers (plain : state.registry.Plain) (c : Context) (isStatic : Bool)
    (type : InferredType) :
    ∃ found after, Engine.run world state (foreignMembers c isStatic type) = (.ok found, after) ∧
      Follows world state after ∧
      ∀ candidate ∈ found, Foreign world state isStatic type candidate := by
  cases type with
  | scriptClass definition =>
      exact ⟨[], state, rfl, .refl, fun _ listed => absurd listed List.not_mem_nil⟩
  | reflected typeName =>
      refine ⟨reflectedList state.registry state.attachments isStatic typeName ++
        if !isStatic && state.registry.isEnumerable typeName then collectionMethods else [], state,
        ?_, .refl, ?_⟩
      · rw [foreignMembers, Engine.run_bind, run_reflectedMembers plain, Engine.goOn_ok]
        rfl
      · intro candidate listed
        rcases List.mem_append.mp listed with ofType | ofCollection
        · exact .reflected ofType
        · split at ofCollection
          · rename_i both
            rw [Bool.and_eq_true, Bool.not_eq_true'] at both
            exact .collection both.1 both.2 ofCollection
          · cases ofCollection
  | cim nameSpace className =>
      obtain ⟨info, after, ran, follows, known⟩ :=
        run_classInfo world state c.session nameSpace className
      have plainAfter : after.registry.Plain := follows.registry ▸ plain
      refine ⟨((info.map (·.properties)).getD []).map (fun p =>
          propertyCandidate after.registry p.name p.type) ++
        reflectedList after.registry after.attachments isStatic Cim.instanceType, after, ?_, follows,
        ?_⟩
      · rw [foreignMembers, Engine.run_bind, ran, Engine.goOn_ok, Engine.run_bind]
        change Engine.run world after (reflectedMembers Cim.instanceType isStatic >>= _) = _
        rw [Engine.run_bind, run_reflectedMembers plainAfter, Engine.goOn_ok]
        rfl
      · intro candidate listed
        rw [follows.registry, follows.attachments] at listed
        rcases List.mem_append.mp listed with ofClass | ofInstance
        · obtain ⟨p, isProperty, rfl⟩ := List.mem_map.mp ofClass
          cases info with
          | none => cases isProperty
          | some info => exact .property (known info rfl) isProperty
        · exact .ofInstance ofInstance

/-! Members of all sources. -/

/-- What holds of lists that are collected from each of some items one after the other. -/
theorem run_collectLists {α β : Type} {collect : α → Engine (List β)}
    {Part : EngineState → α → List β → Prop}
    (each : ∀ s : EngineState, s.registry.Plain → ∀ item, ∃ part after,
      Engine.run world s (collect item) = (.ok part, after) ∧ Follows world s after ∧
        Part s item part)
    (before : ∀ {s t : EngineState} {item : α} {part : List β}, Follows world s t →
      Part t item part → Part s item part)
    (plain : state.registry.Plain) (items : List α) :
    ∃ parts after, Engine.run world state (collectLists collect items) = (.ok parts.flatten, after) ∧
      Follows world state after ∧ List.Forall₂ (Part state) items parts := by
  induction items generalizing state with
  | nil => exact ⟨[], state, rfl, .refl, .nil⟩
  | cons item rest ih =>
      obtain ⟨part, middle, ran, follows, isPart⟩ := each state plain item
      have plainThere : middle.registry.Plain := follows.registry ▸ plain
      obtain ⟨parts, after, goesOn, followsOn, areParts⟩ := ih plainThere
      refine ⟨part :: parts, after, ?_, follows.trans followsOn,
        .cons isPart (areParts.imp fun _ _ => before follows)⟩
      rw [collectLists, Engine.run_bind, ran, Engine.goOn_ok, Engine.run_bind, goesOn]
      rfl

/-- What a source gives. -/
def SourcePart (world : World) (c : Context) (isStatic : Bool) (state : EngineState) :
    MemberSource → List MemberCandidate → Prop
  | .defined definition isOutermost, part =>
      part = classMembers state.registry c isStatic definition isOutermost
  | .described typeName, part =>
      part = reflectedList state.registry state.attachments isStatic typeName
  | .inferred type, part => ∀ candidate ∈ part, Foreign world state isStatic type candidate

theorem SourcePart.before {c : Context} {isStatic : Bool} {source : MemberSource}
    {part : List MemberCandidate} (follows : Follows world state after)
    (isPart : SourcePart world c isStatic after source part) :
    SourcePart world c isStatic state source part := by
  cases source with
  | defined =>
      rw [SourcePart] at isPart ⊢
      rw [isPart, follows.registry]
  | described =>
      rw [SourcePart] at isPart ⊢
      rw [isPart, follows.registry, follows.attachments]
  | inferred type => exact fun candidate listed => (isPart candidate listed).before follows

theorem run_sourceMembers (c : Context) (isStatic : Bool) (plain : state.registry.Plain)
    (source : MemberSource) :
    ∃ part after, Engine.run world state (sourceMembers c isStatic source) = (.ok part, after) ∧
      Follows world state after ∧ SourcePart world c isStatic state source part := by
  cases source with
  | defined definition isOutermost => exact ⟨_, state, rfl, .refl, rfl⟩
  | described typeName =>
      exact ⟨_, state, run_reflectedMembers plain typeName isStatic, .refl, rfl⟩
  | inferred type => exact run_foreignMembers plain c isStatic type

/-- Whatever inference looks at for a context. -/
def inferenceOf (world : World) (state : EngineState) (c : Context) : Inference :=
  { registry := state.registry, attachments := state.attachments, binder := world.binder,
    script := c.script }

theorem run_inference {α : Type} (c : Context) (next : Inference → Engine α) :
    Engine.run world state (Engine.inference c >>= next) =
      Engine.run world state (next (inferenceOf world state c)) := rfl

/-- The sources of the members of a type. -/
def sourcesOf (world : World) (state : EngineState) (c : Context) (type : InferredType) :
    List MemberSource :=
  memberSources (inferenceOf world state c) c.root? (List.range c.script.nodes.size) true [type]

theorem run_inferredMembers (c : Context) (isStatic : Bool) (plain : state.registry.Plain)
    (type : InferredType) :
    ∃ parts after, Engine.run world state (inferredMembers c isStatic type) =
        (.ok parts.flatten, after) ∧ Follows world state after ∧
      List.Forall₂ (SourcePart world c isStatic state) (sourcesOf world state c type) parts :=
  run_collectLists (fun _ plain source => run_sourceMembers c isStatic plain source)
    SourcePart.before plain _

theorem run_membersOfTypes (c : Context) (isStatic : Bool) (plain : state.registry.Plain)
    (types : List InferredType) :
    ∃ all after, Engine.run world state (membersOfTypes c isStatic types) = (.ok all, after) := by
  have each : ∀ s : EngineState, s.registry.Plain → ∀ type, ∃ part after,
      Engine.run world s (inferredMembers c isStatic type) = (.ok part, after) ∧
        Follows world s after ∧ True := by
    intro s plain type
    obtain ⟨parts, after, ran, follows, -⟩ := run_inferredMembers c isStatic plain type
    exact ⟨_, after, ran, follows, trivial⟩
  obtain ⟨parts, after, ran, -⟩ := run_collectLists each (fun _ _ => trivial) plain types
  exact ⟨_, after, ran⟩

/-- The members of a value that are keys of a map. -/
def keyMembers (r : Registry) : Value → List MemberCandidate
  | .map _ entries => entries.filterMap fun (key, entry) =>
      match key with
      | .text name => some (propertyCandidate r name (valueTypeName entry)
          (some (if Quoting.isIdentifier name then name else Quoting.Quote.single.wrap name)))
      | _ => none
  | _ => []

/-- The members of a value are always found, and keys of a map before all others. -/
theorem run_valueMembers (isStatic : Bool) (plain : state.registry.Plain) (v : Value) :
    ∃ others after, Engine.run world state (valueMembers v isStatic) =
      (.ok (keyMembers state.registry v ++ others), after) := by
  have each : ∀ s : EngineState, s.registry.Plain → ∀ typeName, ∃ part after,
      Engine.run world s (reflectedMembers typeName isStatic) = (.ok part, after) ∧
        Follows world s after ∧ True :=
    fun s plain typeName => ⟨_, s, run_reflectedMembers plain typeName isStatic, .refl, trivial⟩
  obtain ⟨parts, after, ran, -⟩ := run_collectLists each (fun _ _ => trivial) plain v.typeNames
  unfold valueMembers
  rw [Engine.run_bind]
  change ∃ others after, Engine.run world state _ = _
  cases v with
  | type _ typeName => exact ⟨_, state, run_reflectedMembers plain typeName true⟩
  | _ =>
      dsimp only
      rw [Engine.run_bind, ran, Engine.goOn_ok, Engine.run_pure]
      simp only [List.append_assoc]
      exact ⟨_, _, rfl⟩

/-- The members of a target are always found. -/
theorem run_targetMembers (c : Context) (target : Node) (isStatic : Bool)
    (plain : state.registry.Plain) :
    ∃ all after, Engine.run world state (targetMembers c target isStatic) = (.ok all, after) := by
  rw [targetMembers, run_inference]
  split
  · obtain ⟨parts, after, ran, -⟩ := run_inferredMembers c true plain _
    exact ⟨_, after, ran⟩
  · split
    · split
      · obtain ⟨others, after, ran⟩ := run_valueMembers isStatic plain _
        exact ⟨_, after, ran⟩
      · exact run_membersOfTypes c isStatic plain _
    · exact run_membersOfTypes c isStatic plain _

end Runs

end TabCompletion.Completion
