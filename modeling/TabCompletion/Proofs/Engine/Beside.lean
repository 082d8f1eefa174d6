import TabCompletion.Proofs.Cim.Request
import TabCompletion.Proofs.Engine.Call

/-!
A call beside itself. The relation between its states says that they are equal and that something
holds of the queries made, so the congruence of every completion carries it from the first step of a
call to its last. What is left to look at are the queries and the ways to fail.
-/

namespace TabCompletion.Engine

/-! Computations that ask the session nothing. -/

/-- What only a query or a new type changes. -/
def lasting (state : EngineState) : Registry × List Query := (state.registry, state.queries)

/-- A computation that gives an answer and makes no query. -/
def Silent {α : Type} (a : Engine α) : Prop :=
  ∀ (world : World) (state : EngineState), ∃ answer after,
    run world state a = (.ok answer, after) ∧ lasting after = lasting state

section Silent

variable {α β : Type}

theorem silent_pure (x : α) : Silent (pure x : Engine α) := fun _ state => ⟨x, state, rfl, rfl⟩

theorem silent_bind {a : Engine α} {f : α → Engine β} (first : Silent a) (next : ∀ x, Silent (f x)) :
    Silent (a >>= f) := by
  intro world state
  obtain ⟨x, middle, ran, same⟩ := first world state
  obtain ⟨answer, after, goesOn, same'⟩ := next x world middle
  refine ⟨answer, after, ?_, same'.trans same⟩
  rw [run_bind, ran]
  exact goesOn

theorem silent_modify {f : EngineState → EngineState}
    (keeps : ∀ state, lasting (f state) = lasting state) : Silent (modify f : Engine PUnit) :=
  fun _ state => ⟨⟨⟩, f state, rfl, keeps state⟩

theorem silent_read : Silent (read : Engine World) := fun world state => ⟨world, state, rfl, rfl⟩

theorem silent_get : Silent (get : Engine EngineState) := fun _ state => ⟨state, state, rfl, rfl⟩

theorem catalog_silent : Silent catalog := by
  intro world state
  simp only [catalog, run_bind, run_get, goOn_ok]
  cases state.catalog <;> exact ⟨_, _, rfl, rfl⟩

theorem isStopped_silent (session : Option Session) : Silent (isStopped session) := by
  cases session with
  | none => exact silent_pure false
  | some live => exact fun _ _ => ⟨_, _, rfl, rfl⟩

end Silent

end TabCompletion.Engine

namespace TabCompletion.Cim

open Engine

variable {α β : Type}

theorem modifyState_silent (change : CimState → CimState) : Silent (modifyState change) :=
  silent_modify fun _ => rfl

theorem dispose_silent (server : Server) (number : Nat) : Silent (dispose server number) :=
  silent_bind (modifyState_silent _) fun _ => silent_pure _

theorem withSession_silent (empty : α) {operation : Server → Engine (Option (Fetched α))}
    (isSilent : ∀ server, Silent (operation server)) : Silent (withSession empty operation) := by
  refine silent_bind silent_read fun world => ?_
  cases world.cim with
  | none => exact silent_pure _
  | some server =>
      simp only
      split
      · refine silent_bind silent_get fun state => ?_
        refine silent_bind (modifyState_silent _) fun _ => ?_
        refine silent_bind (isSilent server) fun fetched => ?_
        exact silent_bind (dispose_silent _ _) fun _ => silent_pure _
      · exact silent_pure _

theorem foldUntilStopped_silent (session : Option Session) (add : β → α → β) (found : β)
    (items : List α) : Silent (foldUntilStopped session add found items) := by
  induction items generalizing found with
  | nil => exact silent_pure _
  | cons item rest ih =>
      refine silent_bind (isStopped_silent session) fun isStopped => ?_
      split
      · exact silent_pure _
      · exact ih (add found item)

theorem listing_silent (session : Option Session) (add : β → α → β) (start : β)
    (finish : Fetched β → Fetched (List Text)) (source : Enumeration α) :
    Silent (listing session add start finish source) := by
  refine silent_bind ?_ fun _ => silent_pure _
  exact silent_bind (foldUntilStopped_silent session add start source.items) fun _ => silent_pure _

/-- A listing that is kept under a key. -/
theorem keptListing_silent (table : CimState → Assoc (List Text)) (key : Text)
    (change : List Text → CimState → CimState) (session : Option Session) (add : β → α → β) (start : β)
    (finish : Fetched β → Fetched (List Text)) (source : Server → Enumeration α) :
    Silent (recalling table key (keeping change (withSession [] fun server =>
      listing session add start finish (source server)))) := by
  refine silent_bind silent_get fun state => ?_
  split
  · exact silent_pure _
  · refine silent_bind (withSession_silent [] fun server => ?_) fun fetched => ?_
    · exact listing_silent session add start finish (source server)
    · split
      · exact silent_bind (modifyState_silent _) fun _ => silent_pure _
      · exact silent_pure _

variable (session : Option Session) (nameSpace className : Text)

theorem classNames_silent : Silent (classNames session nameSpace) := by
  rw [classNames_eq]
  exact keptListing_silent _ _ _ session _ _ _ (·.classes nameSpace)

theorem associatedNames_silent : Silent (associatedNames session nameSpace className) := by
  rw [associatedNames_eq]
  exact keptListing_silent _ _ _ session _ _ _ (·.associated nameSpace className)

theorem classInfo_silent : Silent (classInfo session nameSpace className) := by
  refine silent_bind silent_get fun state => ?_
  split
  · exact silent_pure _
  · refine silent_bind (isStopped_silent session) fun isStopped => ?_
    split
    · exact silent_pure none
    · refine silent_bind (withSession_silent none fun server => silent_pure _) fun fetched => ?_
      split
      · exact silent_bind (modifyState_silent _) fun _ => silent_pure _
      · exact silent_pure none

theorem childNamespaces_silent : Silent (childNamespaces session nameSpace) := by
  refine silent_bind (withSession_silent [] fun server => ?_) fun fetched => silent_pure _
  exact listing_silent session _ _ _ (server.childNames nameSpace)

end TabCompletion.Cim

namespace TabCompletion.Engine

open Completion

/-! Queries. -/

/-- What a session breaks in answering a query: who is blamed and the message. -/
def complaint? (session : Option Session) (q : Query) : Option (Text × Text) :=
  session.bind fun live =>
    match live.execute q with
    | .broken collaborator message => some (collaborator, message)
    | .notList kind =>
        some (sessionName, "'" ++ q.command ++ "' returned " ++ kind ++ " instead of an array")
    | .items _ | .failed _ => none

/-- A query is not made, or it is made and answered, or it ends the request. -/
theorem run_query (world : World) (state : EngineState) (session : Option Session) (q : Query) :
    let asked : EngineState := { state with queries := state.queries ++ [q] }
    run world state (query session q) = (.ok [], state) ∨
    (complaint? session q = none ∧ ∃ values, run world state (query session q) = (.ok values, asked)) ∨
    ∃ collaborator message, complaint? session q = some (collaborator, message) ∧
      run world state (query session q) = (.error (.contract collaborator message), asked) := by
  cases session with
  | none => exact Or.inl rfl
  | some live =>
      simp only [query, complaint?, Option.bind_some]
      cases live.isAvailable with
      | false => exact Or.inl rfl
      | true =>
          refine Or.inr ?_
          cases live.execute q with
          | items values => exact Or.inl ⟨rfl, values, rfl⟩
          | failed message => exact Or.inl ⟨rfl, [], rfl⟩
          | notList kind => exact Or.inr ⟨_, _, rfl, rfl⟩
          | broken collaborator message => exact Or.inr ⟨_, _, rfl, rfl⟩

/-- To the queries of `base` only such with `p` were added. -/
def Added (p : Query → Prop) (base queries : List Query) : Prop :=
  ∃ asked, queries = base ++ asked ∧ ∀ q ∈ asked, p q

section Added

variable {p : Query → Prop} {base middle queries : List Query}

theorem added_self (p : Query → Prop) (base : List Query) : Added p base base :=
  ⟨[], (List.append_nil base).symm, fun _ listed => nomatch listed⟩

theorem Added.add (added : Added p base queries) {q : Query} (holds : p q) :
    Added p base (queries ++ [q]) := by
  obtain ⟨asked, rfl, all⟩ := added
  refine ⟨asked ++ [q], List.append_assoc .., fun other listed => ?_⟩
  rcases List.mem_append.mp listed with older | newest
  · exact all other older
  · rw [List.mem_singleton.mp newest]
    exact holds

theorem Added.trans (first : Added p base middle) (second : Added p middle queries) :
    Added p base queries := by
  obtain ⟨early, rfl, all⟩ := first
  obtain ⟨late, rfl, all'⟩ := second
  refine ⟨early ++ late, List.append_assoc .., fun q listed => ?_⟩
  rcases List.mem_append.mp listed with isEarly | isLate
  · exact all q isEarly
  · exact all' q isLate

end Added

/-! Beside itself. -/

/-- Equal states with some types, of whose queries something holds. -/
def Both (registry : Registry) (holds : List Query → Prop) : StateRelation :=
  fun s t => s = t ∧ s.registry = registry ∧ holds s.queries

/-- A world beside itself, with one session. -/
def beside (world : World) (registry : Registry) (session : Option Session)
    (failed : Failure → List Query → Prop) : Pairing :=
  { left := world
    right := world
    sessions := fun a b => a = session ∧ b = session
    excused := fun _ => False
    failed := fun failure => Both registry (failed failure) }

/-- What holds of the queries is kept by one more that is answered, and each way to fail turns it
into what holds after that failure. -/
structure Carried (registry : Registry) (session : Option Session) (holds : List Query → Prop)
    (failed : Failure → List Query → Prop) : Prop where
  answered : ∀ {queries : List Query} {q : Query}, holds queries → q.command ∈ queryCommands →
    complaint? session q = none → holds (queries ++ [q])
  broken : ∀ {queries : List Query} {q : Query} {collaborator message : Text}, holds queries →
    q.command ∈ queryCommands → complaint? session q = some (collaborator, message) →
    failed (.contract collaborator message) (queries ++ [q])
  refused : ∀ {queries : List Query} {failure : Failure}, holds queries → Refused failure →
    failed failure queries
  endless : ∀ {queries : List Query} (typeName : Text), holds queries →
    registry.elementChain? (registry.elementBound typeName) typeName = none →
    failed .endlessElements queries

section Carried

variable {α : Type} {world : World} {registry : Registry} {session : Option Session}
  {holds : List Query → Prop} {failed : Failure → List Query → Prop}

theorem agree_of_silent {a : Engine α} (silent : Silent a) :
    Agree (beside world registry session failed) (Both registry holds) a a := by
  rintro s _ ⟨rfl, sameTypes, start⟩
  obtain ⟨answer, after, ran, same⟩ := silent world s
  obtain ⟨types, queries⟩ := Prod.mk.inj same
  change Ends _ _ _ (run world s a) (run world s a)
  rw [ran]
  exact .answered rfl ⟨rfl, types.trans sameTypes, queries ▸ start⟩

variable (carried : Carried registry session holds failed)

include carried

theorem query_beside {q : Query} (allowed : q.command ∈ queryCommands) :
    Agree (beside world registry session failed) (Both registry holds) (query session q)
      (query session q) := by
  rintro s _ ⟨rfl, sameTypes, start⟩
  change Ends _ _ _ (run world s (query session q)) (run world s (query session q))
  rcases run_query world s session q with silent | ⟨kept, values, ran⟩ | ⟨_, _, complains, ran⟩
  · rw [silent]
    exact .answered rfl ⟨rfl, sameTypes, start⟩
  · rw [ran]
    exact .answered rfl ⟨rfl, sameTypes, carried.answered start allowed kept⟩
  · rw [ran]
    exact .failed ⟨rfl, sameTypes, carried.broken start allowed complains⟩

theorem beside_concord :
    Concord (beside world registry session failed) (Both registry holds) where
  parse := rfl
  binder := rfl
  paths := rfl
  shares := fun _ => Or.inl rfl
  surface := by
    rintro _ _ ⟨rfl, rfl⟩
    rfl
  registry := fun states => by rw [states.1]
  attachments := fun states => by rw [states.1]
  refused := fun refused _ _ states => ⟨states.1, states.2.1, carried.refused states.2.2 refused⟩
  endless := by
    rintro s _ typeName ⟨rfl, rfl, start⟩ endless
    exact ⟨rfl, rfl, carried.endless typeName start endless⟩
  catalog := agree_of_silent catalog_silent
  query := by
    rintro _ _ ⟨rfl, rfl⟩ q allowed
    exact query_beside carried allowed
  isStopped := by
    rintro _ _ ⟨rfl, rfl⟩
    exact agree_of_silent (isStopped_silent _)
  classInfo := by
    rintro _ _ ⟨rfl, rfl⟩ nameSpace className
    exact agree_of_silent (Cim.classInfo_silent _ nameSpace className)
  associatedNames := by
    rintro _ _ ⟨rfl, rfl⟩ nameSpace className
    exact agree_of_silent (Cim.associatedNames_silent _ nameSpace className)
  childNamespaces := by
    rintro _ _ ⟨rfl, rfl⟩ nameSpace
    exact agree_of_silent (Cim.childNamespaces_silent _ nameSpace)

theorem beside_passage : Passage (beside world registry session failed) (Both registry holds)
    (Both registry holds) where
  starts := beside_concord carried
  ends := beside_concord carried
  weaker := fun _ _ states => states
  classNames := by
    rintro _ _ ⟨rfl, rfl⟩ nameSpace
    exact agree_of_silent (Cim.classNames_silent _ nameSpace)

end Carried

theorem call_beside (world : World) (registry : Registry) (call : Call)
    (failed : Failure → List Query → Prop) :
    call.Corresponds (beside world registry (call.session? world) failed) call := by
  cases call with
  | input text cursor request => exact .input text cursor request _ _ ⟨rfl, rfl⟩ rfl
  | ofContext c operation => exact .ofContext operation (.intro _ _ _ rfl rfl ⟨rfl, rfl⟩)
  | ofWord operation => exact .ofWord operation ⟨rfl, rfl⟩

/-- What a call carries holds at its end, or what follows from its failure does. -/
theorem perform_carried (world : World) (state : EngineState) (call : Call)
    {holds : List Query → Prop} {failed : Failure → List Query → Prop}
    (carried : Carried state.registry (call.session? world) holds failed)
    (start : holds state.queries) :
    match run world state call.perform with
    | (.ok _, after) => holds after.queries
    | (.error failure, after) => failed failure after.queries := by
  have ended : Ends (beside world state.registry (call.session? world) failed)
      (Both state.registry holds) Eq (run world state call.perform) (run world state call.perform) :=
    perform_alike (beside_passage carried) (call_beside world _ call failed) state state
      ⟨rfl, rfl, start⟩
  generalize run world state call.perform = ran at ended ⊢
  cases ended with
  | answered _ states => exact states.2.2
  | failed states => exact states.2.2
  | excused impossible => exact impossible.elim

end TabCompletion.Engine
