import TabCompletion.Binding.Table
import TabCompletion.Paths.Memory
import TabCompletion.Proofs.Cim.Faithful
import TabCompletion.Proofs.Engine.Call
import TabCompletion.Proofs.Text.Literals

/-!
Answers do not depend on what was asked before. The catalog of types and what is known of servers
are recalled between calls; a state is current if all that it recalls is what would be found anew.
Every call leaves a current state, and from current states with the same types a call gives the same
answer and makes the same queries.
-/

namespace TabCompletion.Engine

open Cim (NeverStops Unchanged Truthful)

/-! States that recall nothing outdated. -/

structure Current (server : Option Cim.Server) (state : EngineState) : Prop where
  catalog : ∀ made, state.catalog = some made → made = Catalog.ofRegistry state.registry
  cim : Cim.Faithful server state.cim
  running : state.stopped = false

structure SameTypes (s t : EngineState) : Prop where
  registry : s.registry = t.registry
  attachments : s.attachments = t.attachments

theorem SameTypes.trans {s t u : EngineState} (left : SameTypes s t) (right : SameTypes t u) :
    SameTypes s u :=
  ⟨left.registry.trans right.registry, left.attachments.trans right.attachments⟩

theorem SameTypes.symm {s t : EngineState} (same : SameTypes s t) : SameTypes t s :=
  ⟨same.registry.symm, same.attachments.symm⟩

/-- The computation gives an answer from every current state and leaves a current one with the same
types and queries. Unless the session stops it, the answer is that of the types alone. -/
def Steady {α : Type} (world : World) (session : Option Session) (a : Engine α)
    (answer : Registry → α) : Prop :=
  ∀ state, Current world.cim state → ∃ given after,
    run world state a = (.ok given, after) ∧ Current world.cim after ∧ SameTypes after state ∧
      after.queries = state.queries ∧ (NeverStops session → given = answer state.registry)

section Steady

variable {α : Type} {world : World} (session : Option Session)

theorem steady_of_truthful {a : Engine α} {now : α} (truthful : Truthful world session a now) :
    Steady world session a fun _ => now := by
  intro state current
  obtain ⟨given, after, ran, same, faithful, gives⟩ := truthful state current.cim
  refine ⟨given, after, ran, ⟨?_, faithful, same.stopped.trans current.running⟩,
    ⟨same.registry, same.attachments⟩, same.queries, fun never => gives never current.running⟩
  rw [same.catalog, same.registry]
  exact current.catalog

theorem catalog_steady : Steady world session catalog Catalog.ofRegistry := by
  intro state current
  cases found : state.catalog with
  | some made =>
      have ran : run world state catalog = (.ok made, state) := by
        simp only [catalog, run_bind, run_get, goOn_ok, found, run_pure]
      exact ⟨made, state, ran, current, ⟨rfl, rfl⟩, rfl, fun _ => current.catalog made found⟩
  | none =>
      have ran : run world state catalog = (.ok (Catalog.ofRegistry state.registry),
          { state with
            catalog := some (Catalog.ofRegistry state.registry), catalogs := state.catalogs + 1 }) := by
        simp only [catalog, run_bind, run_get, goOn_ok, found]
        rfl
      refine ⟨_, _, ran, ⟨?_, current.cim, current.running⟩, ⟨rfl, rfl⟩, rfl, fun _ => rfl⟩
      intro made same
      exact (Option.some.inj same).symm

theorem isStopped_steady : Steady world session (isStopped session) fun _ => false := by
  intro state current
  obtain ⟨polls, ran, -⟩ := Cim.run_isStopped world state session
  refine ⟨_, _, ran, ⟨current.catalog, current.cim, current.running⟩, ⟨rfl, rfl⟩, rfl, ?_⟩
  intro never
  exact Cim.stopsAhead_never never current.running 0

end Steady

/-! Two runs from current states. -/

/-- Two current states with the types of `u`, reached from `u` and `v` by the same queries. Where
`one` holds they are one state. -/
structure Together (server : Option Cim.Server) (u v : EngineState) (one : Prop)
    (s t : EngineState) : Prop where
  left : Current server s
  right : Current server t
  origin : SameTypes s u
  same : SameTypes s t
  queries : ∃ made, s.queries = u.queries ++ made ∧ t.queries = v.queries ++ made
  one : one → s = t

/-- A world beside itself. Sessions may stop a run only where the two runs are one. -/
def together (world : World) (u v : EngineState) (one : Prop) : Pairing :=
  { left := world
    right := world
    sessions := fun a b => a = b ∧ (one ∨ NeverStops a)
    excused := fun _ => False
    failed := fun _ => Together world.cim u v one }

section Together

variable {α : Type} {world : World} {u v : EngineState} {one : Prop} {session : Option Session}

theorem agree_of_steady {a : Engine α} {answer : Registry → α}
    (steady : Steady world session a answer) (allowed : one ∨ NeverStops session) :
    Agree (together world u v one) (Together world.cim u v one) a a := by
  intro s t states
  obtain ⟨given, s', ran, current, same, queries, gives⟩ := steady s states.left
  obtain ⟨given', t', ran', current', same', queries', gives'⟩ := steady t states.right
  change Ends _ _ _ (run world s a) (run world t a)
  have sameGiven : given = given' ∧ (one → s' = t') := by
    rcases allowed with isOne | never
    · -- One state has one run.
      rw [states.one isOne, ran'] at ran
      cases ran
      exact ⟨rfl, fun _ => rfl⟩
    · constructor
      · rw [gives never, gives' never, states.same.registry]
      · intro isOne
        rw [states.one isOne, ran'] at ran
        exact (Prod.mk.inj ran).2.symm
  rw [ran, ran', sameGiven.1]
  refine .answered rfl ⟨current, current', same.trans states.origin,
    same.trans (states.same.trans same'.symm), ?_, sameGiven.2⟩
  rw [queries, queries']
  exact states.queries

theorem Together.asked {s t : EngineState} (states : Together world.cim u v one s t) (q : Query) :
    Together world.cim u v one { s with queries := s.queries ++ [q] }
      { t with queries := t.queries ++ [q] } := by
  obtain ⟨made, left, right⟩ := states.queries
  constructor
  · exact ⟨states.left.catalog, states.left.cim, states.left.running⟩
  · exact ⟨states.right.catalog, states.right.cim, states.right.running⟩
  · exact ⟨states.origin.registry, states.origin.attachments⟩
  · exact ⟨states.same.registry, states.same.attachments⟩
  · exact ⟨made ++ [q], by simp [left], by simp [right]⟩
  · intro isOne
    rw [states.one isOne]

theorem query_together (session : Option Session) (q : Query) :
    Agree (together world u v one) (Together world.cim u v one) (query session q)
      (query session q) := by
  have kept : ∀ s t, Together world.cim u v one s t → Together world.cim u v one s t :=
    fun _ _ states => states
  cases session with
  | none => exact agree_pure []
  | some live =>
      refine alike_ite (fun _ => agree_pure []) fun _ => ?_
      refine agree_bind (alike_modify rfl fun s t states => states.asked q) fun _ => ?_
      cases live.execute q with
      | items values => exact agree_pure values
      | failed message => exact agree_pure []
      | notList kind => exact alike_throw kept
      | broken collaborator message => exact alike_throw kept

variable (byKey : ∀ server, world.cim = some server → server.ByKey)

include byKey

theorem together_concord : Concord (together world u v one) (Together world.cim u v one) where
  parse := rfl
  binder := rfl
  paths := rfl
  shares := fun _ => Or.inl rfl
  surface := fun same => by rw [same.1]
  registry := fun states => states.same.registry
  attachments := fun states => states.same.attachments
  refused := fun _ _ _ states => states
  endless := fun _ states _ => states
  -- No session is polled for the catalog, so any one that never stops will do.
  catalog := agree_of_steady (catalog_steady none) (Or.inr fun _ is => nomatch is)
  query := by
    rintro session _ ⟨rfl, -⟩ q _
    exact query_together session q
  isStopped := by
    rintro session _ ⟨rfl, allowed⟩
    exact agree_of_steady (isStopped_steady session) allowed
  classInfo := by
    rintro session _ ⟨rfl, allowed⟩ nameSpace className
    exact agree_of_steady (steady_of_truthful session
      (Cim.classInfo_truthful byKey session nameSpace className)) allowed
  associatedNames := by
    rintro session _ ⟨rfl, allowed⟩ nameSpace className
    exact agree_of_steady (steady_of_truthful session
      (Cim.associatedNames_truthful byKey session nameSpace className)) allowed
  childNamespaces := by
    rintro session _ ⟨rfl, allowed⟩ nameSpace
    exact agree_of_steady (steady_of_truthful session
      (Cim.childNamespaces_truthful session nameSpace)) allowed

theorem together_passage : Passage (together world u v one) (Together world.cim u v one)
    (Together world.cim u v one) where
  starts := together_concord byKey
  ends := together_concord byKey
  weaker := fun _ _ states => states
  classNames := by
    rintro session _ ⟨rfl, allowed⟩ nameSpace
    exact agree_of_steady (steady_of_truthful session
      (Cim.classNames_truthful byKey session nameSpace)) allowed

omit byKey in
theorem call_together (call : Call) (allowed : one ∨ NeverStops (call.session? world)) :
    call.Corresponds (together world u v one) call := by
  cases call with
  | input text cursor request => exact .input text cursor request _ _ ⟨rfl, allowed⟩ rfl
  | ofContext c operation => exact .ofContext operation (.intro _ _ _ rfl rfl ⟨rfl, allowed⟩)
  | ofWord operation => exact .ofWord operation ⟨rfl, allowed⟩

theorem perform_together (one : Prop) (call : Call) (allowed : one ∨ NeverStops (call.session? world))
    (left : Current world.cim u) (right : Current world.cim v) (same : SameTypes u v)
    (isOne : one → u = v) :
    (run world u call.perform).1 = (run world v call.perform).1 ∧
      Together world.cim u v one (run world u call.perform).2 (run world v call.perform).2 := by
  have start : Together world.cim u v one u v :=
    ⟨left, right, ⟨rfl, rfl⟩, same, ⟨[], by simp, by simp⟩, isOne⟩
  have ended : Ends (together world u v one) (Together world.cim u v one) Eq
      (run world u call.perform) (run world v call.perform) :=
    perform_alike (together_passage byKey) (call_together call allowed) u v start
  generalize run world u call.perform = ran at ended ⊢
  generalize run world v call.perform = ran' at ended ⊢
  cases ended with
  | answered answers states => exact ⟨congrArg Except.ok answers, states⟩
  | failed states => exact ⟨rfl, states⟩
  | excused impossible => exact impossible.elim

/-- A call leaves a current state, also one that is stopped. -/
theorem perform_current (call : Call) {state : EngineState} (current : Current world.cim state) :
    Current world.cim (run world state call.perform).2 ∧
      SameTypes (run world state call.perform).2 state := by
  have states := (perform_together byKey True call (Or.inl trivial) current current
    ⟨rfl, rfl⟩ fun _ => rfl).2
  exact ⟨states.left, states.origin⟩

end Together

/-! Histories. -/

/-- What may happen to an engine. -/
inductive Action where
  | call (call : Call)
  | addType (model : TypeModel)
  | addMembers (typeName : Text) (members : List Member)
  | invalidate

namespace Action

def after (world : World) (state : EngineState) : Action → EngineState
  | .call request => (run world state request.perform).2
  | .addType model => (run world state (Engine.addType model)).2
  | .addMembers typeName members => (run world state (Engine.addMembers typeName members)).2
  | .invalidate => (run world state Engine.invalidate).2

def changesTypes : Action → Bool
  | .addType _ | .addMembers _ _ => true
  | .call _ | .invalidate => false

end Action

def afterAll (world : World) (history : List Action) (state : EngineState) : EngineState :=
  history.foldl (Action.after world) state

section History

variable {world : World} (byKey : ∀ server, world.cim = some server → server.ByKey)

include byKey

theorem after_current (action : Action) {state : EngineState} (current : Current world.cim state) :
    Current world.cim (action.after world state) := by
  cases action with
  | call call => exact (perform_current byKey call current).1
  | addType model => exact ⟨fun _ made => (nomatch made), current.cim, current.running⟩
  | addMembers typeName members => exact ⟨current.catalog, current.cim, current.running⟩
  | invalidate => exact ⟨fun _ made => (nomatch made), current.cim, current.running⟩

theorem after_sameTypes (action : Action) {s t : EngineState} (current : Current world.cim s)
    (same : SameTypes s t) :
    SameTypes (action.after world s) (if action.changesTypes then action.after world t else t) := by
  cases action with
  | call call => exact (perform_current byKey call current).2.trans same
  | addType model =>
      exact ⟨congrArg (Registry.addType · model) same.registry, same.attachments⟩
  | addMembers typeName members =>
      exact ⟨same.registry, congrArg (Attachments.add · typeName members) same.attachments⟩
  | invalidate => exact ⟨same.registry, same.attachments⟩

theorem afterAll_current (history : List Action) {state : EngineState}
    (current : Current world.cim state) : Current world.cim (afterAll world history state) := by
  induction history generalizing state with
  | nil => exact current
  | cons action rest ih => exact ih (after_current byKey action current)

/-- Of a history only what changes the types shows in the types. -/
theorem afterAll_sameTypes (history : List Action) {s t : EngineState}
    (current : Current world.cim s) (same : SameTypes s t) :
    SameTypes (afterAll world history s)
      (afterAll world (history.filter Action.changesTypes) t) := by
  induction history generalizing s t with
  | nil => exact same
  | cons action rest ih =>
      have step := after_sameTypes byKey action current same
      have later := ih (after_current byKey action current) step
      by_cases changes : action.changesTypes
      · rw [if_pos changes] at later
        rw [List.filter_cons_of_pos changes]
        exact later
      · rw [if_neg changes] at later
        rw [List.filter_cons_of_neg changes]
        exact later

end History

theorem current_fresh (server : Option Cim.Server) : Current server {} :=
  ⟨fun _ made => (nomatch made), Cim.faithful_nothing server, rfl⟩

/-- Answers do not depend on history. After any calls, additions of types and members and
invalidations, a call that is not stopped gives the same answer, or fails alike, and makes the same
queries as in an engine that was only told of the types and members. -/
theorem answers_ignore_history (world : World)
    (byKey : ∀ server, world.cim = some server → server.ByKey) (history : List Action)
    (call : Call) (never : NeverStops (call.session? world)) :
    let used := afterAll world history {}
    let fresh := afterAll world (history.filter Action.changesTypes) {}
    (run world used call.perform).1 = (run world fresh call.perform).1 ∧
      ∃ made, (run world used call.perform).2.queries = used.queries ++ made ∧
        (run world fresh call.perform).2.queries = fresh.queries ++ made := by
  intro used fresh
  have start := current_fresh world.cim
  obtain ⟨answers, states⟩ := perform_together byKey False call (Or.inr never)
    (afterAll_current byKey history start) (afterAll_current byKey _ start)
    (afterAll_sameTypes byKey history start ⟨rfl, rfl⟩) fun impossible => impossible.elim
  exact ⟨answers, states.queries⟩

/-! One server that has it and one that has not. -/

/-- A world with a management server of some classes. -/
def managedWorld (classes : List Cim.ClassInfo) : World :=
  let parameters := ["Namespace", "ClassName", "MethodName"].map fun (name : String) =>
    ({ name := Text.ofString name, typeName := "System.Object", sets := [] } : Parameter)
  { session := some { execute := fun _ => .items [], readVariable := fun _ => .undefined }
    parse := some fun text _ => CommandLine.parse text
    binder := some (CommandTable.toBinder { commands := [{ name := "Invoke-CimMethod", parameters }] })
    paths := MemoryPaths.provider [] "/" "/" []
    cim := some (Cim.Table.toServer { classes, namespaces := [], associators := [] }) }

theorem managedWorld_neverStops (classes : List Cim.ClassInfo) :
    NeverStops (managedWorld classes).session := by
  intro live is poll
  cases is
  rfl

/-- A class with one static method. -/
def classWith (nameSpace className returnType : Text) : Cim.ClassInfo :=
  ⟨nameSpace, className, [], [⟨"One", true, some returnType, []⟩]⟩

def methodCall (nameSpace className : Text) : Call :=
  let input := "Invoke-CimMethod -Namespace " ++ nameSpace ++ " -ClassName " ++ className ++
    " -MethodName One"
  .input input input.length {}

theorem plain_history_is_ignored :
    let world := managedWorld [classWith "root" "c" "int"]
    let history : List Action := [.call (methodCall "Root" "C"), .addMembers "int" [], .invalidate]
    (run world (afterAll world history {}) (methodCall "root" "c").perform).1 =
      (run world (afterAll world [.addMembers "int" []] {}) (methodCall "root" "c").perform).1 := by
  intro world history
  have byKey : ∀ server, world.cim = some server → server.ByKey := by
    rintro server ⟨⟩
    exact Cim.Table.toServer_byKey _ rfl (by decide)
  have never : NeverStops ((methodCall "root" "c").session? world) := managedWorld_neverStops _
  exact (answers_ignore_history world byKey history (methodCall "root" "c") never).1

/-- The server answers whatever it is asked, in any letter case. -/
structure Reliable (server : Cim.Server) : Prop where
  opens : server.opens
  classes : ∀ nameSpace nameSpace', Text.lower nameSpace = Text.lower nameSpace' →
    server.classes nameSpace = server.classes nameSpace' ∧ (server.classes nameSpace).fails = false
  children : ∀ nameSpace nameSpace', Text.lower nameSpace = Text.lower nameSpace' →
    server.childNames nameSpace = server.childNames nameSpace' ∧
      (server.childNames nameSpace).fails = false
  classInfo : ∀ nameSpace className nameSpace' className',
    Text.lower nameSpace = Text.lower nameSpace' → Text.lower className = Text.lower className' →
    server.classInfo nameSpace className = server.classInfo nameSpace' className' ∧
      (server.classInfo nameSpace className).isSome
  associated : ∀ nameSpace className nameSpace' className',
    Text.lower nameSpace = Text.lower nameSpace' → Text.lower className = Text.lower className' →
    server.associated nameSpace className = server.associated nameSpace' className' ∧
      (server.associated nameSpace className).fails = false

theorem managedWorld_reliable (classes : List Cim.ClassInfo) (server : Cim.Server)
    (is : (managedWorld classes).cim = some server) : Reliable server := by
  cases is
  constructor
  · rfl
  · intro nameSpace nameSpace' same
    simp [Cim.Table.toServer, same]
  · intro nameSpace nameSpace' same
    exact ⟨rfl, rfl⟩
  · intro nameSpace className nameSpace' className' same same'
    simp [Cim.Table.toServer, same, same']
  · intro nameSpace className nameSpace' className' same same'
    exact ⟨rfl, rfl⟩

/-- What explains the first result. -/
def firstTip (answer : Except Failure Answer) : Option Text :=
  (answer.toOption.bind (·.results.head?)).map (·.toolTip)

set_option maxRecDepth 10000 in
/-- It is not enough that a server ignores letter case. The classes `c` of `a:b` and `b:c` of `a` are
kept under one key, so the method of the one that was asked for first is offered for the other. -/
theorem merged_classes_are_confused :
    let world := managedWorld [classWith "a:b" "c" "int", classWith "a" "b:c" "string"]
    (∀ server, world.cim = some server → Reliable server) ∧
      NeverStops world.session ∧
      (run world (afterAll world [.call (methodCall "a:b" "c")] {})
        (methodCall "a" "b:c").perform).1 ≠ (run world {} (methodCall "a" "b:c").perform).1 := by
  intro world
  refine ⟨managedWorld_reliable _, managedWorld_neverStops _, fun same => ?_⟩
  have tips : firstTip (run world {} (methodCall "a" "b:c").perform).1 =
        some (Text.ofString "string One()") ∧
      firstTip (run world (afterAll world [.call (methodCall "a:b" "c")] {})
        (methodCall "a" "b:c").perform).1 = some (Text.ofString "int One()") := by
    -- The way to the tables is unfolded, so that their many literals are read from their bytes.
    delta afterAll Action.after Call.perform completeInput Analysis.results Analysis.route
      Analysis.routeWith Analysis.atToken Analysis.wordToken Analysis.plainWord
      Analysis.wordAsArgument Completion.argumentValues Completion.parameterValues
      Completion.nativeValues? NativeTable.bundled NativeTable.bundledEntries
    delta Registry.bundled Bundled.knownTypes Bundled.primitives Bundled.values Bundled.collections
      Bundled.library Bundled.automation
    rw [Text.ofString_eq]
    decide +kernel
  rw [same, tips.1] at tips
  exact absurd tips.2 (by decide)

end TabCompletion.Engine
