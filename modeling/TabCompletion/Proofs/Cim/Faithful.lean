import Mathlib.Data.List.Basic
import Mathlib.Data.List.Find
import TabCompletion.Proofs.Cim.Request

/-!
What is known of a server is what the server says. Requests keep knowledge faithful, also those that
are stopped, and a request that is not stopped gives what the server says now, whether it recalls
it or asks.
-/

namespace TabCompletion.Cim

/-- The server does not tell requests apart that are kept under one key. -/
structure Server.ByKey (server : Server) : Prop where
  classes : ∀ {nameSpace nameSpace' : Text}, Text.lower nameSpace = Text.lower nameSpace' →
    server.classes nameSpace = server.classes nameSpace'
  associated : ∀ {nameSpace className nameSpace' className' : Text},
    classKey nameSpace className = classKey nameSpace' className' →
    server.associated nameSpace className = server.associated nameSpace' className'
  classInfo : ∀ {nameSpace className nameSpace' className' : Text},
    classKey nameSpace className = classKey nameSpace' className' →
    server.classInfo nameSpace className = server.classInfo nameSpace' className'

def colon : CodeUnit := ':'

theorem classKey_eq (nameSpace className : Text) :
    classKey nameSpace className = Text.lower nameSpace ++ colon :: Text.lower className := by
  have written : Text.ofString ":" = [colon] := by decide
  rw [classKey, written, List.append_assoc]
  rfl

/-- Where no name has a colon, a key belongs to one class. -/
theorem Table.toServer_byKey (t : Table) (unassociated : t.associators = [])
    (noColon : ∀ c ∈ t.classes,
      colon ∉ Text.lower c.nameSpace ∧ colon ∉ Text.lower c.className) : t.toServer.ByKey := by
  -- A class is found by its two names exactly if it is found by its key.
  have found : ∀ nameSpace className, t.classes.find? (fun c =>
      Text.lower c.nameSpace == Text.lower nameSpace &&
        Text.lower c.className == Text.lower className) =
      t.classes.find? fun c => classKey c.nameSpace c.className == classKey nameSpace className := by
    intro nameSpace className
    refine List.find?_congr fun c listed => ?_
    have sameKey : classKey c.nameSpace c.className = classKey nameSpace className ↔
        Text.lower c.nameSpace = Text.lower nameSpace ∧ colon = colon ∧
          Text.lower c.className = Text.lower className := by
      rw [classKey_eq, classKey_eq]
      exact List.append_cons_inj_of_notMem (noColon c listed).1 (noColon c listed).2
    rw [Bool.eq_iff_iff, Bool.and_eq_true, beq_iff_eq, beq_iff_eq, beq_iff_eq, sameKey]
    simp only [true_and]
  constructor
  · intro nameSpace nameSpace' same
    simp only [Table.toServer, same]
  · intro nameSpace className nameSpace' className' same
    simp only [Table.toServer, unassociated]
    rfl
  · intro nameSpace className nameSpace' className' same
    simp only [Table.toServer, found, same]

theorem reach_congr {α : Type} {server : Option Server} {answer answer' : Server → Option α}
    (same : ∀ live, server = some live → answer live = answer' live) :
    reach server answer = reach server answer' := by
  cases server with
  | none => rfl
  | some live => simp only [reach, Option.bind_some, same live rfl]

theorem reachAll_congr {α : Type} {server : Option Server} {source source' : Server → Enumeration α}
    (same : ∀ live, server = some live → source live = source' live) :
    reachAll server source = reachAll server source' :=
  reach_congr fun live is => congrArg Enumeration.whole? (same live is)

/-! What a server says. -/

section Now

variable (server : Option Server) (nameSpace className : Text)

def classNamesNow : List Text := ((reachAll server (·.classes nameSpace)).map sortedClassNames).getD []

def associatedNow : List Text :=
  ((reachAll server (·.associated nameSpace className)).map sortedDistinct).getD []

def classNow : Option ClassInfo := (reach server (·.classInfo nameSpace className)).join

def childrenNow : List Text :=
  ((reachAll server (·.childNames nameSpace)).map (sortedChildren nameSpace)).getD []

end Now

/-- All that is known is what the server says. -/
structure Faithful (server : Option Server) (known : CimState) : Prop where
  classNames : ∀ nameSpace listed,
    Assoc.get? known.classNames (Text.lower nameSpace) = some listed →
    listed = classNamesNow server nameSpace
  associations : ∀ nameSpace className listed,
    Assoc.get? known.associations (classKey nameSpace className) = some listed →
    listed = associatedNow server nameSpace className
  classes : ∀ nameSpace className info,
    Assoc.get? known.classes (classKey nameSpace className) = some info →
    some info = classNow server nameSpace className

theorem faithful_nothing (server : Option Server) : Faithful server {} := by
  constructor <;> intros <;> contradiction

/-! Keeping. -/

section Keeping

variable {server : Option Server} {known : CimState} (faithful : Faithful server known)
  (byKey : ∀ live, server = some live → live.ByKey)

include faithful byKey

theorem Faithful.keepNames {nameSpace : Text} {items : List ClassInfo}
    (reached : reachAll server (·.classes nameSpace) = some items) :
    Faithful server (keepNames (Text.lower nameSpace) (sortedClassNames items) known) := by
  refine ⟨fun other listed found => ?_, faithful.associations, faithful.classes⟩
  simp only [Cim.keepNames, Assoc.get?_set] at found
  split at found
  · rename_i sameKey
    have same : reachAll server (·.classes other) = some items := by
      rw [← reached]
      exact reachAll_congr fun live is => (byKey live is).classes sameKey
    rw [classNamesNow, same]
    exact (Option.some.inj found).symm
  · exact faithful.classNames other listed found

theorem Faithful.keepAssociations {nameSpace className : Text} {names : List Text}
    (reached : reachAll server (·.associated nameSpace className) = some names) :
    Faithful server
      (keepAssociations (classKey nameSpace className) (sortedDistinct names) known) := by
  refine ⟨faithful.classNames, fun space name listed found => ?_, faithful.classes⟩
  simp only [Cim.keepAssociations, Assoc.get?_set] at found
  split at found
  · rename_i sameKey
    have same : reachAll server (·.associated space name) = some names := by
      rw [← reached]
      exact reachAll_congr fun live is => (byKey live is).associated sameKey
    rw [associatedNow, same]
    exact (Option.some.inj found).symm
  · exact faithful.associations space name listed found

theorem Faithful.keepClass {nameSpace className : Text} {info : ClassInfo}
    (reached : reach server (·.classInfo nameSpace className) = some (some info)) :
    Faithful server (keepClass (classKey nameSpace className) info known) := by
  refine ⟨faithful.classNames, faithful.associations, fun space name other found => ?_⟩
  simp only [Cim.keepClass, Assoc.get?_set] at found
  split at found
  · rename_i sameKey
    have same : reach server (·.classInfo space name) = some (some info) := by
      rw [← reached]
      exact reach_congr fun live is => (byKey live is).classInfo sameKey
    rw [classNow, same]
    exact found.symm
  · exact faithful.classes space name other found

end Keeping

/-! Requests. -/

/-- The session is stopped at no poll. -/
def NeverStops (session : Option Session) : Prop :=
  ∀ live, session = some live → ∀ poll, live.stopsAt poll = false

theorem stopsAhead_never {session : Option Session} (never : NeverStops session)
    {state : EngineState} (running : state.stopped = false) (ahead : Nat) :
    stopsAhead session state ahead = false := by
  cases session with
  | none => rfl
  | some live => rw [stopsAhead, running, never live rfl, Bool.or_false]

theorem uninterrupted_never {session : Option Session} (never : NeverStops session)
    {state : EngineState} (running : state.stopped = false) {count : Nat} :
    Uninterrupted session state count :=
  fun ahead _ => stopsAhead_never never running ahead

/-- The states differ in what is known of servers and in the count of polls at most. -/
structure Unchanged (state after : EngineState) : Prop where
  registry : after.registry = state.registry
  attachments : after.attachments = state.attachments
  catalog : after.catalog = state.catalog
  stopped : after.stopped = state.stopped
  queries : after.queries = state.queries

theorem Served.unchanged {state after : EngineState} (served : Served state after) :
    Unchanged state after := by
  cases served <;> exact ⟨rfl, rfl, rfl, rfl, rfl⟩

theorem Served.faithful {server : Option Server} {state after : EngineState}
    (served : Served state after) (faithful : Faithful server state.cim) :
    Faithful server after.cim := by
  cases served <;> exact ⟨faithful.classNames, faithful.associations, faithful.classes⟩

/-- From faithful knowledge the request is answered and leaves faithful knowledge; unless it is
stopped, it gives `now`. -/
def Truthful {α : Type} (world : World) (session : Option Session) (request : Engine α) (now : α) :
    Prop :=
  ∀ state : EngineState, Faithful world.cim state.cim → ∃ given after,
    Engine.run world state request = (.ok given, after) ∧ Unchanged state after ∧
      Faithful world.cim after.cim ∧
      (NeverStops session → state.stopped = false → given = now)

section Truthful

variable {world : World} (byKey : ∀ live, world.cim = some live → live.ByKey)
  (session : Option Session) (nameSpace className : Text)

theorem childNamespaces_truthful :
    Truthful world session (childNamespaces session nameSpace)
      (childrenNow world.cim nameSpace) := by
  intro state faithful
  obtain ⟨value, after, served, ran, listed⟩ := childNamespaces_served world session state nameSpace
  refine ⟨value, after, ran, served.unchanged, served.faithful faithful, fun never running => ?_⟩
  exact listed fun _ => uninterrupted_never never running

/-- A request for a listing is truthful if recalling and keeping are. -/
theorem listed_truthful {α : Type} {table : CimState → Assoc (List Text)} {key : Text}
    {source : Server → Enumeration α} {whole : List α → List Text}
    {keep : List Text → CimState → CimState} {request : Engine (List Text)}
    (listed : ∀ state, Listed world session state table key source whole keep
      (Engine.run world state request))
    (recalls : ∀ known names, Faithful world.cim known → Assoc.get? (table known) key = some names →
      names = ((reachAll world.cim source).map whole).getD [])
    (keeps : ∀ known items, Faithful world.cim known → reachAll world.cim source = some items →
      Faithful world.cim (keep (whole items) known)) :
    Truthful world session request (((reachAll world.cim source).map whole).getD []) := by
  intro state faithful
  have ended := listed state
  generalize Engine.run world state request = ran at ended ⊢
  cases ended with
  | @recalled names known =>
      exact ⟨names, state, rfl, ⟨rfl, rfl, rfl, rfl, rfl⟩, faithful,
        fun _ _ => recalls _ names faithful known⟩
  | @kept items after unknown reached quiet served =>
      have same := served.unchanged
      refine ⟨_, _, rfl, ⟨same.registry, same.attachments, same.catalog, same.stopped,
        same.queries⟩, keeps _ items (served.faithful faithful) reached, fun _ _ => ?_⟩
      rw [reached]
      rfl
  | @passed value after unknown vain served =>
      refine ⟨value, after, rfl, served.unchanged, served.faithful faithful,
        fun never running => ?_⟩
      obtain ⟨missing, nothing⟩ := vain fun _ => uninterrupted_never never running
      rw [missing, nothing]
      rfl

include byKey

theorem classNames_truthful :
    Truthful world session (classNames session nameSpace) (classNamesNow world.cim nameSpace) :=
  listed_truthful session (fun state => classNames_listed world session state nameSpace)
    (fun _ names faithful known => faithful.classNames nameSpace names known)
    fun _ _ faithful reached => faithful.keepNames byKey reached

theorem associatedNames_truthful :
    Truthful world session (associatedNames session nameSpace className)
      (associatedNow world.cim nameSpace className) :=
  listed_truthful session
    (fun state => associatedNames_listed world session state nameSpace className)
    (fun _ names faithful known => faithful.associations nameSpace className names known)
    fun _ _ faithful reached => faithful.keepAssociations byKey reached

theorem classInfo_truthful :
    Truthful world session (classInfo session nameSpace className)
      (classNow world.cim nameSpace className) := by
  intro state faithful
  have found := classInfo_found world session state nameSpace className
  generalize Engine.run world state _ = ran at found ⊢
  cases found with
  | @recalled info known =>
      exact ⟨some info, state, rfl, ⟨rfl, rfl, rfl, rfl, rfl⟩, faithful,
        fun _ _ => faithful.classes nameSpace className info known⟩
  | @stopped polls unknown broken =>
      refine ⟨none, _, rfl, ⟨rfl, rfl, rfl, rfl, rfl⟩, faithful, fun never running => ?_⟩
      exact absurd (uninterrupted_never never running) broken
  | @kept info after unknown quiet reached served =>
      have same := served.unchanged
      refine ⟨_, _, rfl, ⟨same.registry, same.attachments, same.catalog, same.stopped,
        same.queries⟩, (served.faithful faithful).keepClass byKey reached, fun _ _ => ?_⟩
      rw [classNow, reached]
      rfl
  | @missing after unknown nothing served =>
      exact ⟨none, after, rfl, served.unchanged, served.faithful faithful,
        fun _ _ => nothing.symm⟩

end Truthful

end TabCompletion.Cim
