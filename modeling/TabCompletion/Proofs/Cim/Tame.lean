import TabCompletion.Proofs.Cim.Request
import TabCompletion.Proofs.Engine.Alike

/-!
Management servers that fail and servers that answer emptily. An empty listing is kept and what a
failing server does not say is not, and an enumeration that fails late was polled for the items
before; so the two leave different states. No answer tells them apart as long as the session says the
same at every poll, or enumerations fail before their first item.
-/

namespace TabCompletion.Cim

/-- The server with an empty answer in the place of every failure. A server that cannot be opened
becomes one that knows nothing. -/
def Server.tame (server : Server) : Server :=
  let reached {α : Type} (nothing : α) (answer : Option α) : α :=
    if server.opens then answer.getD nothing else nothing
  { opens := true
    closes := server.closes
    classInfo := fun nameSpace className => some (reached none (server.classInfo nameSpace className))
    classes := fun nameSpace => { items := reached [] (server.classes nameSpace).whole? }
    childNames := fun nameSpace => { items := reached [] (server.childNames nameSpace).whole? }
    associated := fun nameSpace className =>
      { items := reached [] (server.associated nameSpace className).whole? } }

/-- Whether the associations of a class can be listed is a matter of the key that it is kept under:
a server does not tell classes apart that are kept as one. -/
def Server.FailsByKey (server : Server) : Prop :=
  ∀ nameSpace className nameSpace' className',
    classKey nameSpace className = classKey nameSpace' className' →
    (server.associated nameSpace className).fails → (server.associated nameSpace' className').fails

/-- An enumeration that fails does so before its first item. -/
structure Server.FailsAtOnce (server : Server) : Prop where
  classes : ∀ nameSpace, (server.classes nameSpace).fails → (server.classes nameSpace).items = []
  childNames : ∀ nameSpace,
    (server.childNames nameSpace).fails → (server.childNames nameSpace).items = []
  associated : ∀ nameSpace className, (server.associated nameSpace className).fails →
    (server.associated nameSpace className).items = []

/-- The answers of the tame server, where `nothing` is the empty one. -/
def IsTamed {α : Type} (answer : Server → Option α) (nothing : α) : Prop :=
  ∀ live : Server, answer live.tame =
    some (if live.opens then (answer live).getD nothing else nothing)

section Reach

variable {α : Type} {live : Server} {answer : Server → Option α} {nothing : α}

theorem tame_found {found : α} (tamed : IsTamed answer nothing)
    (reached : reach (some live) answer = some found) : answer live.tame = some found := by
  obtain ⟨opens, answered⟩ := reach_eq_some reached
  rw [tamed live, if_pos opens, answered, Option.getD_some]

theorem tame_nothing (tamed : IsTamed answer nothing) (missing : reach (some live) answer = none) :
    answer live.tame = some nothing := by
  rw [reach, Option.bind_some] at missing
  rw [tamed live]
  by_cases opens : live.opens
  · rw [if_pos opens] at missing
    rw [if_pos opens, missing, Option.getD_none]
  · rw [if_neg opens]

end Reach

theorem reachAll_associated_none {server : Option Server}
    (byKey : ∀ live, server = some live → live.FailsByKey)
    {nameSpace className nameSpace' className' : Text}
    (sameKey : classKey nameSpace className = classKey nameSpace' className')
    (missing : reachAll server (·.associated nameSpace className) = none) :
    reachAll server (·.associated nameSpace' className') = none := by
  cases server with
  | none => rfl
  | some live =>
      by_cases opens : live.opens
      · have fails := fails_of_reachAll opens missing
        exact reachAll_fails (byKey live rfl _ _ _ _ sameKey fails)
      · exact reachAll_closed opens

/-! What is known of the two. -/

/-- What is known of the server, on the left, and of the tame one, on the right. An empty listing of
associations may be known on the right only, if the server fails for every class of that key.
`names` says what holds of the listings of classes. -/
structure Covers (server : Option Server) (names : Assoc (List Text) → Assoc (List Text) → Prop)
    (left right : CimState) : Prop where
  classes : left.classes = right.classes
  associations : ∀ key, Assoc.get? left.associations key = Assoc.get? right.associations key ∨
    Assoc.get? left.associations key = none ∧ Assoc.get? right.associations key = some [] ∧
      ∀ nameSpace className, classKey nameSpace className = key →
        reachAll server (·.associated nameSpace className) = none
  classNames : names left.classNames right.classNames

/-- States that are equal but for what is known of servers and, where sessions are `steady`, for the
count of polls. -/
inductive Tamed (steady : Prop) (known : CimState → CimState → Prop) (s : EngineState) :
    EngineState → Prop where
  | intro (cim : CimState) (polls : Nat) : known s.cim cim → (steady ∨ polls = s.polls) →
      Tamed steady known s { s with cim, polls }

namespace Covers

variable {server : Option Server} {names names' : Assoc (List Text) → Assoc (List Text) → Prop}
  {left right : CimState} (covers : Covers server names left right) (key : Text)

include covers

theorem setClass (info : ClassInfo) :
    Covers server names { left with classes := Assoc.set left.classes key info }
      { right with classes := Assoc.set right.classes key info } :=
  ⟨congrArg (Assoc.set · key info) covers.classes, covers.associations, covers.classNames⟩

theorem keepAssociations (found : List Text) :
    Covers server names (Cim.keepAssociations key found left)
      (Cim.keepAssociations key found right) := by
  refine ⟨covers.classes, fun other => ?_, covers.classNames⟩
  simp only [Cim.keepAssociations, Assoc.get?_set]
  by_cases same : other = key
  · exact Or.inl (by rw [if_pos same, if_pos same])
  · rw [if_neg same, if_neg same]
    exact covers.associations other

/-- The tame server's empty listing may be kept where the server fails. -/
theorem keepNothing (unknown : Assoc.get? left.associations key = none)
    (fails : ∀ nameSpace className, classKey nameSpace className = key →
      reachAll server (·.associated nameSpace className) = none) :
    Covers server names left (Cim.keepAssociations key [] right) := by
  refine ⟨covers.classes, fun other => ?_, covers.classNames⟩
  simp only [Cim.keepAssociations, Assoc.get?_set]
  by_cases same : other = key
  · rw [if_pos same, same]
    exact Or.inr ⟨unknown, rfl, fails⟩
  · rw [if_neg same]
    exact covers.associations other

theorem ofNames {listed listed' : Assoc (List Text)} (holds : names' listed listed') :
    Covers server names' { left with classNames := listed } { right with classNames := listed' } :=
  ⟨covers.classes, covers.associations, holds⟩

end Covers

/-- A relation that does not depend on how many sessions were opened and closed. -/
def Uncounted (known : CimState → CimState → Prop) : Prop :=
  ∀ left right : CimState, known left right → ∀ opened opened' disposed disposed',
    known { left with opened, disposed } { right with opened := opened', disposed := disposed' }

theorem covers_uncounted {server : Option Server}
    {names : Assoc (List Text) → Assoc (List Text) → Prop} : Uncounted (Covers server names) :=
  fun _ _ covers _ _ _ _ => ⟨covers.classes, covers.associations, covers.classNames⟩

namespace Tamed

variable {steady : Prop} {known known' : CimState → CimState → Prop} {s t : EngineState}
  (tamed : Tamed steady known s t)

include tamed

theorem change {left right : CimState} (changed : known s.cim t.cim → known' left right) :
    Tamed steady known' { s with cim := left } { t with cim := right } := by
  obtain ⟨cim, polls, states, timely⟩ := tamed
  exact .intro right polls (changed states) timely

theorem withCounts (uncounted : Uncounted known) (opened opened' : Nat)
    (disposed disposed' : List Nat) :
    Tamed steady known (withCounts s opened disposed) (withCounts t opened' disposed') :=
  tamed.change fun states => uncounted _ _ states opened opened' disposed disposed'

/-- Only the left side was polled. -/
theorem polledLeft {polls : Nat} (timely : steady ∨ polls = s.polls) :
    Tamed steady known (polled s polls) t := by
  obtain ⟨cim, polls', states, timely'⟩ := tamed
  refine .intro (s := polled s polls) cim polls' states ?_
  rcases timely with isSteady | same
  · exact Or.inl isSteady
  · exact timely'.imp id fun same' => same'.trans same.symm

end Tamed

/-! Requests in vain. -/

section Vain

variable {α : Type} {world : World} {session : Option Session} {steady : Prop}

/-- The request gives nothing. It may open and close sessions, and poll one that is steady; the answer
counts as complete only if `cut` says so of one that was cut short. -/
def InVain (steady : Prop) (world : World) (empty : α) (cut : Bool) (request : Engine (Fetched α)) :
    Prop :=
  ∀ state, ∃ complete opened disposed polls,
    Engine.run world state request =
        (.ok ⟨empty, complete⟩, polled (withCounts state opened disposed) polls) ∧
      (complete → cut) ∧ (steady ∨ polls = state.polls)

theorem Served.counted {state after : EngineState} (served : Served state after) :
    ∃ opened disposed polls, after = polled (withCounts state opened disposed) polls := by
  cases served with
  | unopened polls => exact ⟨state.cim.opened, state.cim.disposed, polls, rfl⟩
  | closed polls => exact ⟨_, _, polls, rfl⟩

/-- In the session nothing is fetched and nothing polled. -/
theorem withSession_inVain {empty : α} {operation : Server → Engine (Option (Fetched α))}
    {cut : Bool}
    (nothing : ∀ live, world.cim = some live → live.opens → ∀ state,
      Engine.run world (opening state) (operation live) =
        (.ok none, polled (opening state) state.polls)) :
    InVain steady world empty cut (withSession empty operation) := by
  intro state
  cases found : world.cim with
  | none =>
      exact ⟨false, state.cim.opened, state.cim.disposed, state.polls,
        run_withSession_absent empty operation state found, Bool.noConfusion, Or.inr rfl⟩
  | some live =>
      by_cases opens : live.opens
      · exact ⟨false, _, _, _, run_withSession empty operation state found opens
          (nothing live found opens state), Bool.noConfusion, Or.inr rfl⟩
      · exact ⟨false, state.cim.opened, state.cim.disposed, state.polls,
          run_withSession_closed empty operation state found opens, Bool.noConfusion, Or.inr rfl⟩

theorem single_inVain (nameSpace className : Text)
    (missing : reach world.cim (·.classInfo nameSpace className) = none) :
    InVain steady world none false
      (withSession none fun live => single (live.classInfo nameSpace className)) := by
  refine withSession_inVain fun live found opens state => ?_
  rw [found, reach, Option.bind_some, if_pos opens] at missing
  rw [missing]
  rfl

section Listing

variable {β : Type} (source : Server → Enumeration α) (add : β → α → β) (start : β)
  (finish : Fetched β → Fetched (List Text)) {cut : Bool}
  (missing : reachAll world.cim source = none)

include missing

/-- A steady session stops the enumeration before its first item, if at all. -/
theorem steady_listing_inVain (isSteady : steady) (same : Unwavering session)
    (cutShort : finish ⟨start, false⟩ = ⟨[], cut⟩) :
    InVain steady world [] cut
      (withSession [] fun live => listing session add start finish (source live)) := by
  intro state
  have fetching := run_listing world session state source add start finish
  generalize Engine.run world state _ = ran at fetching ⊢
  cases fetching with
  | missing missing served =>
      obtain ⟨opened, disposed, polls, rfl⟩ := served.counted
      exact ⟨false, opened, disposed, polls, rfl, Bool.noConfusion, Or.inl isSteady⟩
  | whole reached quiet served =>
      rw [missing] at reached
      contradiction
  | part found below stopped served =>
      obtain ⟨opened, disposed, polls, rfl⟩ := served.counted
      cases same.stopped_first stopped
      rw [List.take_zero, List.foldl_nil, cutShort]
      exact ⟨cut, opened, disposed, polls, rfl, id, Or.inl isSteady⟩

/-- An enumeration that fails before its first item is not polled for one. -/
theorem listing_inVain_atOnce (atOnce : ∀ live, world.cim = some live → (source live).fails →
      (source live).items = []) :
    InVain steady world [] cut
      (withSession [] fun live => listing session add start finish (source live)) := by
  refine withSession_inVain fun live found opens state => ?_
  rw [found] at missing
  have fails := fails_of_reachAll opens missing
  rw [run_listing_folded, atOnce live found fails, fails]
  rfl

theorem listing_inVain (steadily : steady → Unwavering session)
    (cutShort : finish ⟨start, false⟩ = ⟨[], cut⟩)
    (timely : steady ∨ ∀ live, world.cim = some live → (source live).fails →
      (source live).items = []) :
    InVain steady world [] cut
      (withSession [] fun live => listing session add start finish (source live)) := by
  rcases timely with isSteady | atOnce
  · exact steady_listing_inVain source add start finish missing isSteady (steadily isSteady) cutShort
  · exact listing_inVain_atOnce source add start finish missing atOnce

end Listing

end Vain

/-! Sessions of the server. -/

section Alike

variable {α : Type} {p : Pairing} {server : Option Server} {steady : Prop}
  {known known' : CimState → CimState → Prop}

theorem isStopped_agree {a b : Option Session} (same : a.map (·.stopsAt) = b.map (·.stopsAt))
    (steadily : steady → Unwavering a) :
    Agree p (Tamed steady known) (Engine.isStopped a) (Engine.isStopped b) := by
  rintro s _ ⟨cim, polls, states, timely⟩
  cases a with
  | none =>
      cases b with
      | none => exact .answered rfl ⟨cim, polls, states, timely⟩
      | some other => contradiction
  | some live =>
      cases b with
      | none => contradiction
      | some other =>
          have sameStops : live.stopsAt = other.stopsAt := Option.some.inj same
          have samePoll : live.stopsAt s.polls = live.stopsAt polls := by
            rcases timely with isSteady | same
            · rw [steadily isSteady live rfl, steadily isSteady live rfl polls]
            · rw [same]
          refine .answered ?_ (Tamed.intro (s := { s with polls := s.polls + 1 }) cim (polls + 1)
            states (timely.imp id fun same => by rw [same]))
          simp only [samePoll, sameStops]

theorem foldUntilStopped_agree {β : Type} {kept : StateRelation} {a b : Option Session}
    (stops : Agree p kept (Engine.isStopped a) (Engine.isStopped b)) (add : β → α → β) (found : β)
    (items : List α) :
    Agree p kept (foldUntilStopped a add found items) (foldUntilStopped b add found items) := by
  induction items generalizing found with
  | nil => exact agree_pure _
  | cons item rest ih =>
      refine agree_bind stops fun isStopped => ?_
      exact alike_ite (fun _ => agree_pure _) fun _ => ih (add found item)

/-- Both sides fetch the same, or the server does not answer and the tame one answers emptily. -/
def FetchAlike (missing : Prop) (empty : α) (left right : Fetched α) : Prop :=
  left = right ∨ left = ⟨empty, false⟩ ∧ right = ⟨empty, true⟩ ∧ missing

theorem dispose_alike (uncounted : Uncounted known) (live live' : Server) (number number' : Nat) :
    Alike p (Tamed steady known) (Tamed steady known) (fun _ _ => True) (dispose live number)
      (dispose live' number') := by
  refine alike_update (Tamed steady known) (fun s t states => ?_)
    (alike_pure trivial fun _ _ states => states)
  exact states.withCounts uncounted _ _ _ _

theorem withSession_opened_alike (empty : α) {live live' : Server}
    {operation operation' : Server → Engine (Option (Fetched α))}
    {related : Fetched α → Fetched α → Prop} (answers : ∀ fetched, related fetched fetched)
    (left : p.left.cim = some live) (right : p.right.cim = some live') (opens : live.opens)
    (opens' : live'.opens) (uncounted : Uncounted known)
    (agrees : Agree p (Tamed steady known) (operation live) (operation' live')) :
    Alike p (Tamed steady known) (Tamed steady known) related (withSession empty operation)
      (withSession empty operation') := by
  apply alike_read
  simp only [left, right, if_pos opens, if_pos opens']
  -- Either side counts the sessions that it opens and closes by itself.
  refine alike_get fun s t start => alike_update (Tamed steady known) ?_ ?_
  · rintro _ _ ⟨rfl, rfl⟩
    exact start.withCounts uncounted _ _ _ _
  · refine alike_after agrees fun fetched => ?_
    refine alike_bind (Tamed steady known) (dispose_alike uncounted live live' _ _) fun _ _ _ => ?_
    exact alike_pure (answers _) fun _ _ states => states

/-- Where the server does not answer the request is in vain and the tame server answers emptily; where
it answers, the two agree. -/
theorem withSession_alike {δ : Type} (left : p.left.cim = server)
    (right : p.right.cim = server.map Server.tame) (uncounted : Uncounted known) (empty : α)
    (answer : Server → Option δ) {operation operation' : Server → Engine (Option (Fetched α))}
    {cut : Bool}
    (vain : reach server answer = none → InVain steady p.left empty cut (withSession empty operation))
    (empties : ∀ live, server = some live → reach server answer = none →
      operation' live.tame = pure (some ⟨empty, true⟩))
    (agrees : ∀ live found, server = some live → reach server answer = some found →
      Agree p (Tamed steady known) (operation live) (operation' live.tame)) :
    Alike p (Tamed steady known) (Tamed steady known) (FetchAlike (reach server answer = none) empty)
      (withSession empty operation) (withSession empty operation') := by
  cases server with
  | none =>
      apply alike_read
      rw [left, right]
      exact alike_pure (Or.inl rfl) fun _ _ states => states
  | some live =>
      cases found : reach (some live) answer with
      | none =>
          -- The tame server is opened in any case, the other one perhaps not.
          intro s t start
          obtain ⟨complete, opened, disposed, polls, ran, -, timely⟩ := vain found s
          have asked : Engine.run p.right (opening t) (operation' live.tame) =
              (.ok (some ⟨empty, true⟩), polled (opening t) t.polls) := by
            rw [empties live rfl found]
            rfl
          rw [ran, run_withSession empty operation' t right rfl asked]
          refine .answered ?_ ((start.withCounts uncounted opened _ disposed _).polledLeft timely)
          cases complete with
          | true => exact Or.inl rfl
          | false => exact Or.inr ⟨rfl, rfl, rfl⟩
      | some items =>
          obtain ⟨opens, -⟩ := reach_eq_some found
          exact withSession_opened_alike empty (fun _ => Or.inl rfl) left right opens rfl uncounted
            (agrees live items rfl found)

theorem keeping_alike {missing : Prop} {change : List Text → CimState → CimState}
    {a b : Engine (Fetched (List Text))}
    (fetched : Alike p (Tamed steady known) (Tamed steady known) (FetchAlike missing []) a b)
    (both : ∀ value left right, known left right → known' (change value left) (change value right))
    (alone : missing → ∀ left right, known left right → known' left (change [] right))
    (neither : ∀ left right, known left right → known' left right) :
    Alike p (Tamed steady known) (Tamed steady known') Eq (keeping change a) (keeping change b) := by
  -- Where the two sides fetch differently, only the tame one goes on to keep its empty answer.
  refine alike_bind (Tamed steady known) fetched ?_
  rintro f g (rfl | ⟨rfl, rfl, fails⟩)
  · refine alike_ite (fun _ => ?_) fun _ => ?_
    · refine alike_update (Tamed steady known') (fun s t states => ?_) (agree_pure _)
      exact states.change (both f.value _ _)
    · exact alike_pure rfl fun s t states => states.change (neither _ _)
  · intro s t states
    exact .answered rfl (states.change (alone fails _ _))

end Alike

/-! The answers of the two. -/

theorem sorted_nothing : Fetched.sorted ⟨[], true⟩ = ⟨[], true⟩ := by
  rw [Fetched.sorted, if_pos rfl, sortIgnoringCase_nil]

section Answers

variable {p : Pairing} {server : Option Server} (left : p.left.cim = server)
  (right : p.right.cim = server.map Server.tame)
  {names : Assoc (List Text) → Assoc (List Text) → Prop} {steady : Prop}
  {a b : Option Session} (sameStops : a.map (·.stopsAt) = b.map (·.stopsAt))
  (steadily : steady → Unwavering a)

include left right

theorem single_alike {known : CimState → CimState → Prop} (uncounted : Uncounted known)
    (nameSpace className : Text) :
    Alike p (Tamed steady known) (Tamed steady known)
      (FetchAlike (reach server (·.classInfo nameSpace className) = none) none)
      (withSession none fun live => single (live.classInfo nameSpace className))
      (withSession none fun live => single (live.classInfo nameSpace className)) := by
  have tamed : IsTamed (·.classInfo nameSpace className) none := fun _ => rfl
  refine withSession_alike left right uncounted none (·.classInfo nameSpace className)
    (fun missing => single_inVain nameSpace className (left ▸ missing)) ?_ ?_
  · rintro live rfl missing
    simp only [tame_nothing tamed missing]
    rfl
  · rintro live found rfl reached
    simp only [tame_found tamed reached, (reach_eq_some reached).2]
    exact agree_pure _

include sameStops steadily

theorem listing_alike {α β : Type} {known : CimState → CimState → Prop}
    (uncounted : Uncounted known) (add : β → α → β) (start : β)
    (finish : Fetched β → Fetched (List Text)) (nothing : finish ⟨start, true⟩ = ⟨[], true⟩)
    {cut : Bool} (cutShort : finish ⟨start, false⟩ = ⟨[], cut⟩) (source : Server → Enumeration α)
    (tamed : IsTamed (fun live => (source live).whole?) [])
    (timely : steady ∨ ∀ live, server = some live → (source live).fails →
      (source live).items = []) :
    Alike p (Tamed steady known) (Tamed steady known)
      (FetchAlike (reachAll server source = none) [])
      (withSession [] fun live => listing a add start finish (source live))
      (withSession [] fun live => listing b add start finish (source live)) := by
  have stops : Agree p (Tamed steady known) (Engine.isStopped a) (Engine.isStopped b) :=
    isStopped_agree sameStops steadily
  have vain := fun missing : reachAll server source = none =>
    listing_inVain source add start finish (left ▸ missing) steadily cutShort
      (timely.imp id fun atOnce live found => atOnce live (left ▸ found))
  refine withSession_alike left right uncounted [] (fun live => (source live).whole?) vain ?_ ?_
  · rintro live rfl missing
    rw [Enumeration.eq_of_whole? (tame_nothing tamed missing), ← nothing]
    rfl
  · rintro live items rfl reached
    rw [Enumeration.eq_of_whole? (tame_found tamed reached), (reachAll_eq_some reached).2]
    refine agree_bind ?_ fun found => agree_pure _
    exact agree_bind (foldUntilStopped_agree stops add start items) fun found => agree_pure _

theorem childNamespaces_agree (nameSpace : Text)
    (timely : steady ∨ ∀ live, server = some live → live.FailsAtOnce) :
    Agree p (Tamed steady (Covers server names)) (childNamespaces a nameSpace)
      (childNamespaces b nameSpace) := by
  have nothing : (⟨sortIgnoringCase id [], true⟩ : Fetched (List Text)) = ⟨[], true⟩ := by
    rw [sortIgnoringCase_nil]
  refine alike_bind _ (listing_alike left right sameStops steadily covers_uncounted _ [] _
    nothing nothing (·.childNames nameSpace) (fun _ => rfl)
    (timely.imp id fun atOnce live found => (atOnce live found).childNames nameSpace)) ?_
  rintro f g (rfl | ⟨rfl, rfl, -⟩)
  · exact agree_pure _
  · exact agree_pure []

theorem classInfo_agree (nameSpace className : Text) :
    Agree p (Tamed steady (Covers server names)) (classInfo a nameSpace className)
      (classInfo b nameSpace className) := by
  -- Nothing is kept of a class that was not found, so both sides know the same classes throughout.
  refine alike_get fun s t start => ?_
  obtain ⟨cim, polls, covers, timely⟩ := id start
  refine alike_from start ?_
  simp only [covers.classes]
  cases Assoc.get? cim.classes (classKey nameSpace className) with
  | some found => exact agree_pure (some found)
  | none =>
      refine agree_bind (isStopped_agree sameStops steadily) fun isStopped => ?_
      refine alike_ite (fun _ => agree_pure none) fun _ => ?_
      refine alike_bind _ (single_alike left right covers_uncounted nameSpace className) ?_
      rintro f g (rfl | ⟨rfl, rfl, -⟩)
      · cases f.value with
        | none => exact agree_pure none
        | some found =>
            refine alike_update _ (fun s t states => ?_) (agree_pure (some found))
            exact states.change fun covers => covers.setClass _ found
      · exact agree_pure none

theorem listedAssociations_alike {known : CimState → CimState → Prop} (uncounted : Uncounted known)
    (nameSpace className : Text)
    (timely : steady ∨ ∀ live, server = some live → live.FailsAtOnce) :
    Alike p (Tamed steady known) (Tamed steady known)
      (FetchAlike (reachAll server (·.associated nameSpace className) = none) [])
      (listedAssociations a nameSpace className) (listedAssociations b nameSpace className) :=
  listing_alike left right sameStops steadily uncounted
    (fun names (name : Text) => Assoc.set names (Text.lower name) name) []
    (fun f => Fetched.sorted ⟨Assoc.values f.value, f.complete⟩) sorted_nothing rfl
    (·.associated nameSpace className) (fun _ => rfl)
    (timely.imp id fun atOnce live found => (atOnce live found).associated nameSpace className)

theorem newAssociations_alike (byKey : ∀ live, server = some live → live.FailsByKey)
    (nameSpace className : Text)
    (timely : steady ∨ ∀ live, server = some live → live.FailsAtOnce) :
    Alike p
      (Tamed steady fun left right => Covers server names left right ∧
        Assoc.get? left.associations (classKey nameSpace className) = none)
      (Tamed steady (Covers server names)) Eq
      (keeping (keepAssociations (classKey nameSpace className))
        (listedAssociations a nameSpace className))
      (keeping (keepAssociations (classKey nameSpace className))
        (listedAssociations b nameSpace className)) := by
  have uncounted : Uncounted fun left right => Covers server names left right ∧
      Assoc.get? left.associations (classKey nameSpace className) = none :=
    fun _ _ states _ _ _ _ => ⟨covers_uncounted _ _ states.1 _ _ _ _, states.2⟩
  refine keeping_alike (listedAssociations_alike left right sameStops steadily uncounted nameSpace
    className timely) ?_ ?_ ?_
  · exact fun value left right states => states.1.keepAssociations _ value
  · intro fails left right states
    refine states.1.keepNothing _ states.2 fun nameSpace' className' sameKey => ?_
    exact reachAll_associated_none byKey sameKey.symm fails
  · exact fun left right states => states.1

theorem associatedNames_agree (byKey : ∀ live, server = some live → live.FailsByKey)
    (nameSpace className : Text)
    (timely : steady ∨ ∀ live, server = some live → live.FailsAtOnce) :
    Agree p (Tamed steady (Covers server names)) (associatedNames a nameSpace className)
      (associatedNames b nameSpace className) := by
  rw [associatedNames_eq, associatedNames_eq]
  rintro s _ ⟨cim, polls, covers, samePolls⟩
  rcases covers.associations (classKey nameSpace className) with same | ⟨unknown, empty, fails⟩
  · cases found : Assoc.get? cim.associations (classKey nameSpace className) with
    | some listed =>
        rw [run_recalling_known _ (same.trans found), run_recalling_known _ found]
        exact .answered rfl (.intro cim polls covers samePolls)
    | none =>
        rw [run_recalling_unknown _ (same.trans found), run_recalling_unknown _ found]
        exact newAssociations_alike left right sameStops steadily byKey nameSpace className timely _ _
          (.intro cim polls ⟨covers, same.trans found⟩ samePolls)
  · -- A key that the tame side alone knows is asked for again on the other side, in vain.
    rw [run_recalling_unknown _ unknown, run_recalling_known _ empty]
    have missing : reachAll p.left.cim (·.associated nameSpace className) = none := by
      rw [left]
      exact fails nameSpace className rfl
    have vain : InVain steady p.left [] false (listedAssociations a nameSpace className) :=
      listing_inVain _ _ [] _ missing steadily rfl (timely.imp id fun atOnce live found =>
        (atOnce live (left ▸ found)).associated nameSpace className)
    obtain ⟨complete, opened, disposed, polls', ended, kept, timely'⟩ := vain s
    have notKept : complete = false :=
      Bool.eq_false_iff.mpr fun isKept => Bool.false_ne_true (kept isKept)
    rw [keeping, Engine.run_bind, ended, notKept]
    exact .answered rfl (((Tamed.intro cim polls covers samePolls).withCounts covers_uncounted opened
      cim.opened disposed cim.disposed).polledLeft timely')

/-- From the first listing of class names on, the two sides may know different ones. -/
theorem classNames_alike (nameSpace : Text)
    (timely : steady ∨ ∀ live, server = some live → live.FailsAtOnce) :
    Alike p (Tamed steady (Covers server Eq)) (Tamed steady (Covers server fun _ _ => True)) Eq
      (classNames a nameSpace) (classNames b nameSpace) := by
  rw [classNames_eq, classNames_eq]
  rintro s _ ⟨cim, polls, covers, samePolls⟩
  have same : Assoc.get? s.cim.classNames (Text.lower nameSpace) =
      Assoc.get? cim.classNames (Text.lower nameSpace) := by rw [covers.classNames]
  cases found : Assoc.get? cim.classNames (Text.lower nameSpace) with
  | some listed =>
      rw [run_recalling_known _ (same.trans found), run_recalling_known _ found]
      exact .answered rfl (.intro cim polls (covers.ofNames trivial) samePolls)
  | none =>
      rw [run_recalling_unknown _ (same.trans found), run_recalling_unknown _ found]
      refine keeping_alike (listing_alike left right sameStops steadily covers_uncounted _ [] _
        sorted_nothing rfl (·.classes nameSpace) (fun _ => rfl)
        (timely.imp id fun atOnce live found => (atOnce live found).classes nameSpace)) ?_ ?_ ?_ _ _
        (.intro cim polls covers samePolls)
      · exact fun value left right covers => covers.ofNames trivial
      · exact fun _ left right covers => covers.ofNames trivial
      · exact fun left right covers => covers.ofNames trivial

end Answers

end TabCompletion.Cim
