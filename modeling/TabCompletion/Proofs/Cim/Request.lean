import TabCompletion.Cim.Cache
import TabCompletion.Proofs.Assoc
import TabCompletion.Proofs.Engine.Run
import TabCompletion.Proofs.Sorting

/-!
What a request to a server can do. Every request either recalls what is known or opens at most one
session, which it closes again; it keeps a listing only if the enumeration came to its end and the
session was not stopped before the last item. One inversion lemma for each request says so, and
whatever holds of what is known follows from these lemmas.
-/

namespace TabCompletion.Cim

/-! What a server answers. -/

/-- What a server answers, if there is one and it can be opened. -/
def reach {α : Type} (server : Option Server) (answer : Server → Option α) : Option α :=
  server.bind fun server => if server.opens then answer server else none

/-- The items of an enumeration that does not fail. -/
def Enumeration.whole? {α : Type} (source : Enumeration α) : Option (List α) :=
  if source.fails then none else some source.items

/-- What the server enumerates, if the enumeration comes to its end. -/
def reachAll {α : Type} (server : Option Server) (source : Server → Enumeration α) :
    Option (List α) :=
  reach server fun live => (source live).whole?

section Reach

variable {α : Type} {server : Option Server} {live : Server}

theorem reach_eq_some {answer : Server → Option α} {found : α}
    (reached : reach (some live) answer = some found) : live.opens ∧ answer live = some found := by
  rw [reach, Option.bind_some] at reached
  by_cases opens : live.opens
  · rw [if_pos opens] at reached
    exact ⟨opens, reached⟩
  · rw [if_neg opens] at reached
    contradiction

theorem Enumeration.eq_of_whole? {source : Enumeration α} {items : List α}
    (isWhole : source.whole? = some items) : source = { items } := by
  obtain ⟨listed, fails⟩ := source
  cases fails with
  | false => rw [← Option.some.inj isWhole]
  | true => contradiction

theorem reachAll_eq_some {source : Server → Enumeration α} {items : List α}
    (reached : reachAll (some live) source = some items) :
    live.opens ∧ source live = { items } :=
  (reach_eq_some reached).imp id Enumeration.eq_of_whole?

theorem reachAll_fails {source : Server → Enumeration α} (fails : (source live).fails) :
    reachAll (some live) source = none := by
  rw [reachAll, reach, Option.bind_some, Enumeration.whole?, if_pos fails, ite_self]

theorem fails_of_reachAll {source : Server → Enumeration α} (opens : live.opens)
    (missing : reachAll (some live) source = none) : (source live).fails := by
  rw [reachAll, reach, Option.bind_some, if_pos opens, Enumeration.whole?] at missing
  cases fails : (source live).fails with
  | true => rfl
  | false =>
      rw [fails] at missing
      contradiction

theorem reachAll_closed {source : Server → Enumeration α} (closed : ¬live.opens) :
    reachAll (some live) source = none := by
  rw [reachAll, reach, Option.bind_some, if_neg closed]

end Reach

/-! The shapes that fetching takes. -/

/-- What a listing collects is finished. -/
def listing {α β : Type} (session : Option Session) (add : β → α → β) (start : β)
    (finish : Fetched β → Fetched (List Text)) (source : Enumeration α) :
    Engine (Option (Fetched (List Text))) := do
  let found ← collect session add start source
  return found.map finish

/-- A class is fetched in one go. -/
def single (answer : Option (Option ClassInfo)) : Engine (Option (Fetched (Option ClassInfo))) :=
  return answer.map fun found => ⟨found, true⟩

/-- What was fetched to its end is kept. -/
def keeping (change : List Text → CimState → CimState) (fetch : Engine (Fetched (List Text))) :
    Engine (List Text) := do
  let fetched ← fetch
  if fetched.complete then modifyState (change fetched.value)
  return fetched.value

def listedClasses (session : Option Session) (nameSpace : Text) : Engine (Fetched (List Text)) :=
  withSession [] fun server =>
    listing session (fun names (c : ClassInfo) => names ++ [c.className]) [] Fetched.sorted
      (server.classes nameSpace)

def listedAssociations (session : Option Session) (nameSpace className : Text) :
    Engine (Fetched (List Text)) :=
  withSession [] fun server =>
    listing session (fun names (name : Text) => Assoc.set names (Text.lower name) name) []
      (fun f => Fetched.sorted ⟨Assoc.values f.value, f.complete⟩)
      (server.associated nameSpace className)

def listedChildren (session : Option Session) (nameSpace : Text) : Engine (Fetched (List Text)) :=
  withSession [] fun server =>
    listing session
      (fun names (name : Option Text) => names ++ name.toList.map fun n => nameSpace ++ "/" ++ n) []
      (fun f => ⟨sortIgnoringCase id f.value, true⟩) (server.childNames nameSpace)

def keepNames (key : Text) (found : List Text) (known : CimState) : CimState :=
  { known with classNames := Assoc.set known.classNames key found }

def keepAssociations (key : Text) (found : List Text) (known : CimState) : CimState :=
  { known with associations := Assoc.set known.associations key found }

/-- What is known already is not fetched. -/
def recalling (table : CimState → Assoc (List Text)) (key : Text) (fetch : Engine (List Text)) :
    Engine (List Text) := do
  match Assoc.get? (table (← get).cim) key with
  | some known => return known
  | none => fetch

theorem classNames_eq (session : Option Session) (nameSpace : Text) :
    classNames session nameSpace = recalling CimState.classNames (Text.lower nameSpace)
      (keeping (keepNames (Text.lower nameSpace)) (listedClasses session nameSpace)) := rfl

theorem associatedNames_eq (session : Option Session) (nameSpace className : Text) :
    associatedNames session nameSpace className =
      recalling CimState.associations (classKey nameSpace className)
        (keeping (keepAssociations (classKey nameSpace className))
          (listedAssociations session nameSpace className)) := rfl

theorem childNamespaces_eq (session : Option Session) (nameSpace : Text) :
    childNamespaces session nameSpace = do
      let fetched ← listedChildren session nameSpace
      return fetched.value := rfl

section Recalling

variable {world : World} {state : EngineState} {table : CimState → Assoc (List Text)} {key : Text}

theorem run_recalling_known (fetch : Engine (List Text)) {found : List Text}
    (isKnown : Assoc.get? (table state.cim) key = some found) :
    Engine.run world state (recalling table key fetch) = (.ok found, state) := by
  simp only [recalling, Engine.run_bind, Engine.run_get, Engine.goOn_ok, isKnown, Engine.run_pure]

theorem run_recalling_unknown (fetch : Engine (List Text))
    (unknown : Assoc.get? (table state.cim) key = none) :
    Engine.run world state (recalling table key fetch) = Engine.run world state fetch := by
  simp only [recalling, Engine.run_bind, Engine.run_get, Engine.goOn_ok, unknown]

end Recalling

/-! Polls. -/

/-- What a session says at the poll that follows `ahead` others. -/
def stopsAhead (session : Option Session) (state : EngineState) (ahead : Nat) : Bool :=
  match session with
  | none => false
  | some live => state.stopped || live.stopsAt (state.polls + ahead)

/-- The state with another count of polls. -/
def polled (state : EngineState) (polls : Nat) : EngineState := { state with polls }

/-- At none of the next `count` polls the session says that it is stopped. -/
def Uninterrupted (session : Option Session) (state : EngineState) (count : Nat) : Prop :=
  ∀ ahead < count, stopsAhead session state ahead = false

/-- The session is stopped at the poll after `count` others, and only there at the earliest. -/
structure StoppedAfter (session : Option Session) (state : EngineState) (count : Nat) : Prop where
  quiet : Uninterrupted session state count
  stops : stopsAhead session state count = true

theorem StoppedAfter.not_uninterrupted {session : Option Session} {state : EngineState}
    {count total : Nat} (stopped : StoppedAfter session state count) (below : count < total) :
    ¬Uninterrupted session state total := by
  intro quiet
  have stops := stopped.stops
  rw [quiet count below] at stops
  contradiction

theorem stopsAhead_congr {session : Option Session} {s t : EngineState} (polls : s.polls = t.polls)
    (stopped : s.stopped = t.stopped) : stopsAhead session s = stopsAhead session t := by
  funext ahead
  simp only [stopsAhead, polls, stopped]

theorem run_isStopped (world : World) (state : EngineState) (session : Option Session) :
    ∃ polls, Engine.run world state (Engine.isStopped session) =
        (.ok (stopsAhead session state 0), polled state polls) ∧
      ∀ ahead, stopsAhead session (polled state polls) ahead =
        stopsAhead session state (ahead + 1) := by
  cases session with
  | none => exact ⟨state.polls, rfl, fun _ => rfl⟩
  | some live =>
      refine ⟨state.polls + 1, rfl, fun ahead => ?_⟩
      have next : state.polls + 1 + ahead = state.polls + (ahead + 1) := by omega
      simp only [stopsAhead, polled, next]

theorem uninterrupted_succ {session : Option Session} {state next : EngineState} {count : Nat}
    (first : stopsAhead session state 0 = false)
    (shifted : ∀ ahead, stopsAhead session next ahead = stopsAhead session state (ahead + 1))
    (quiet : Uninterrupted session next count) : Uninterrupted session state (count + 1) := by
  intro ahead below
  cases ahead with
  | zero => exact first
  | succ ahead =>
      rw [← shifted]
      exact quiet ahead (by omega)

/-- How a fold ends that a stop may cut short: after the last item, or at the poll for an item after
those that were taken. -/
inductive Folded {α β : Type} (session : Option Session) (state : EngineState) (add : β → α → β)
    (found : β) (items : List α) : Except Failure (β × Bool) × EngineState → Prop where
  | whole (polls : Nat) : Uninterrupted session state items.length →
      Folded session state add found items (.ok (items.foldl add found, true), polled state polls)
  | part (count polls : Nat) : count < items.length → StoppedAfter session state count →
      Folded session state add found items
        (.ok ((items.take count).foldl add found, false), polled state polls)

theorem run_foldUntilStopped {α β : Type} (world : World) (state : EngineState)
    (session : Option Session) (add : β → α → β) (found : β) (items : List α) :
    Folded session state add found items
      (Engine.run world state (foldUntilStopped session add found items)) := by
  induction items generalizing state found with
  | nil => exact .whole state.polls fun ahead below => absurd below (Nat.not_lt_zero ahead)
  | cons item rest ih =>
      obtain ⟨polls, asked, shifted⟩ := run_isStopped world state session
      rw [foldUntilStopped, Engine.run_bind, asked, Engine.goOn_ok]
      cases first : stopsAhead session state 0 with
      | true =>
          exact .part 0 polls (Nat.succ_pos _)
            ⟨fun ahead below => absurd below (Nat.not_lt_zero ahead), first⟩
      | false =>
          have later := ih (polled state polls) (add found item)
          rw [if_neg (by simp)]
          generalize Engine.run world (polled state polls) _ = ran at later
          cases later with
          | whole more quiet => exact .whole more (uninterrupted_succ first shifted quiet)
          | part count more below stopped =>
              refine .part (count + 1) more (Nat.succ_lt_succ below)
                ⟨uninterrupted_succ first shifted stopped.quiet, ?_⟩
              rw [← shifted]
              exact stopped.stops

/-- A session that says the same at every poll. -/
def Unwavering (session : Option Session) : Prop :=
  ∀ live, session = some live → ∀ poll, live.stopsAt poll = live.stopsAt 0

theorem Unwavering.stopsAhead_eq {session : Option Session} (same : Unwavering session)
    (state : EngineState) (first second : Nat) :
    stopsAhead session state first = stopsAhead session state second := by
  cases session with
  | none => rfl
  | some live => simp only [stopsAhead, same live rfl]

/-- Such a session stops at the first poll or not at all. -/
theorem Unwavering.stopped_first {session : Option Session} (same : Unwavering session)
    {state : EngineState} {count : Nat} (stopped : StoppedAfter session state count) :
    count = 0 := by
  rcases Nat.eq_zero_or_pos count with first | later
  · exact first
  · have stops := stopped.stops
    rw [same.stopsAhead_eq state count 0, stopped.quiet 0 later] at stops
    contradiction

/-! Sessions. -/

/-- The state with other counts of opened and closed sessions. -/
def withCounts (state : EngineState) (opened : Nat) (disposed : List Nat) : EngineState :=
  { state with cim := { state.cim with opened, disposed } }

/-- The state after a session was opened and closed, or after none was opened; the session may have
been polled. -/
inductive Served (state : EngineState) : EngineState → Prop where
  | unopened (polls : Nat) : Served state (polled state polls)
  | closed (polls : Nat) : Served state (polled
      (withCounts state (state.cim.opened + 1) (state.cim.disposed ++ [state.cim.opened])) polls)

/-- The state in which an operation runs in its session. -/
def opening (state : EngineState) : EngineState :=
  { state with cim := { state.cim with opened := state.cim.opened + 1 } }

section Runs

variable {α : Type} {world : World} {live : Server} (empty : α)
  (operation : Server → Engine (Option (Fetched α))) (state : EngineState)

theorem run_withSession_absent (absent : world.cim = none) :
    Engine.run world state (withSession empty operation) = (.ok ⟨empty, false⟩, state) := by
  simp only [withSession, Engine.run_bind, Engine.run_read, Engine.goOn_ok, absent]
  rfl

theorem run_withSession_closed (found : world.cim = some live) (closed : ¬live.opens) :
    Engine.run world state (withSession empty operation) = (.ok ⟨empty, false⟩, state) := by
  simp only [withSession, Engine.run_bind, Engine.run_read, Engine.goOn_ok, found, if_neg closed]
  rfl

theorem run_withSession (found : world.cim = some live) (opens : live.opens)
    {fetched : Option (Fetched α)} {polls : Nat}
    (ran : Engine.run world (opening state) (operation live) =
      (.ok fetched, polled (opening state) polls)) :
    Engine.run world state (withSession empty operation) =
      (.ok (fetched.getD ⟨empty, false⟩), polled
        (withCounts state (state.cim.opened + 1) (state.cim.disposed ++ [state.cim.opened]))
        polls) := by
  have opened : Engine.run world state (withSession empty operation) =
      Engine.goOn world (fun fetched => do
        let _ ← dispose live state.cim.opened
        return fetched.getD ⟨empty, false⟩) (Engine.run world (opening state) (operation live)) := by
    simp only [withSession, Engine.run_bind, Engine.run_read, Engine.goOn_ok, found, if_pos opens]
    change Engine.run world (opening state) (operation live >>= _) = _
    rw [Engine.run_bind]
  rw [opened, ran]
  rfl

end Runs

/-- How a listing in a session ends: without a complete enumeration, with one, or cut short. -/
inductive Fetching {α β : Type} (world : World) (session : Option Session) (state : EngineState)
    (source : Server → Enumeration α) (add : β → α → β) (start : β)
    (finish : Fetched β → Fetched (List Text)) :
    Except Failure (Fetched (List Text)) × EngineState → Prop where
  | missing {after : EngineState} : reachAll world.cim source = none → Served state after →
      Fetching world session state source add start finish (.ok ⟨[], false⟩, after)
  | whole {items : List α} {after : EngineState} : reachAll world.cim source = some items →
      Uninterrupted session state items.length → Served state after →
      Fetching world session state source add start finish
        (.ok (finish ⟨items.foldl add start, true⟩), after)
  | part {live : Server} {count : Nat} {after : EngineState} : world.cim = some live →
      count < (source live).items.length → StoppedAfter session state count →
      Served state after →
      Fetching world session state source add start finish
        (.ok (finish ⟨((source live).items.take count).foldl add start, false⟩), after)

theorem run_listing_folded {α β : Type} (world : World) (session : Option Session)
    (state : EngineState) (add : β → α → β) (start : β) (finish : Fetched β → Fetched (List Text))
    (source : Enumeration α) :
    Engine.run world state (listing session add start finish source) =
      Engine.goOn world
        (fun found => return (if found.2 && source.fails then none else
          some (finish ⟨found.1, found.2⟩)))
        (Engine.run world state (foldUntilStopped session add start source.items)) := by
  rw [listing, collect, Engine.run_bind, Engine.run_bind]
  generalize Engine.run world state _ = ran
  obtain ⟨failure | ⟨found, reachedEnd⟩, after⟩ := ran
  · rfl
  · simp only [Engine.goOn_ok, Engine.run_pure]
    split <;> rfl

theorem run_listing_opened {α β : Type} {world : World} {live : Server}
    (found : world.cim = some live) (opens : live.opens) (session : Option Session)
    (state : EngineState) (source : Server → Enumeration α) (add : β → α → β) (start : β)
    (finish : Fetched β → Fetched (List Text)) :
    Fetching world session state source add start finish
      (Engine.run world state (withSession [] fun live =>
        listing session add start finish (source live))) := by
  let operation := fun live => listing session add start finish (source live)
  have reached : reachAll world.cim source = (source live).whole? := by
    rw [found, reachAll, reach, Option.bind_some, if_pos opens]
  -- Opening the session changes no count of polls.
  have same : stopsAhead session (opening state) = stopsAhead session state :=
    stopsAhead_congr rfl rfl
  have folded := run_foldUntilStopped world (opening state) session add start (source live).items
  have listed := run_listing_folded world session (opening state) add start finish (source live)
  change Engine.run world (opening state) (operation live) = _ at listed
  generalize Engine.run world (opening state) (foldUntilStopped session add start _) = ran
    at folded listed
  cases folded with
  | whole polls quiet =>
      rw [Uninterrupted, same] at quiet
      rw [Engine.goOn_ok] at listed
      cases fails : (source live).fails with
      | true =>
          rw [fails] at listed
          rw [run_withSession [] operation state found opens listed]
          rw [Enumeration.whole?, if_pos fails] at reached
          exact .missing reached (.closed polls)
      | false =>
          rw [fails] at listed
          rw [run_withSession [] operation state found opens listed]
          rw [Enumeration.whole?, if_neg (by rw [fails]; exact Bool.false_ne_true)] at reached
          exact .whole reached quiet (.closed polls)
  | part count polls below stopped =>
      have stopped' : StoppedAfter session state count :=
        ⟨fun ahead less => same ▸ stopped.quiet ahead less, same ▸ stopped.stops⟩
      rw [run_withSession [] operation state found opens listed]
      exact .part found below stopped' (.closed polls)

theorem run_listing {α β : Type} (world : World) (session : Option Session) (state : EngineState)
    (source : Server → Enumeration α) (add : β → α → β) (start : β)
    (finish : Fetched β → Fetched (List Text)) :
    Fetching world session state source add start finish
      (Engine.run world state (withSession [] fun live =>
        listing session add start finish (source live))) := by
  cases found : world.cim with
  | none =>
      rw [run_withSession_absent [] _ state found]
      exact .missing (by rw [found]; rfl) (.unopened state.polls)
  | some live =>
      by_cases opens : live.opens
      · exact run_listing_opened found opens session state source add start finish
      · rw [run_withSession_closed [] _ state found opens]
        exact .missing (by rw [found, reachAll_closed opens]) (.unopened state.polls)

/-! Requests. -/

/-- The state after what is known of servers was changed. -/
def learning (change : CimState → CimState) (state : EngineState) : EngineState :=
  { state with cim := change state.cim }

/-- How a request for a listing ends that is kept under a key: recalled, fetched and kept, or given
away without being kept. -/
inductive Listed {α : Type} (world : World) (session : Option Session) (state : EngineState)
    (table : CimState → Assoc (List Text)) (key : Text) (source : Server → Enumeration α)
    (whole : List α → List Text) (keep : List Text → CimState → CimState) :
    Except Failure (List Text) × EngineState → Prop where
  | recalled {listed : List Text} : Assoc.get? (table state.cim) key = some listed →
      Listed world session state table key source whole keep (.ok listed, state)
  | kept {items : List α} {after : EngineState} : Assoc.get? (table state.cim) key = none →
      reachAll world.cim source = some items → Uninterrupted session state items.length →
      Served state after →
      Listed world session state table key source whole keep
        (.ok (whole items), learning (keep (whole items)) after)
  | passed {value : List Text} {after : EngineState} :
      Assoc.get? (table state.cim) key = none →
      ((∀ total, Uninterrupted session state total) →
        reachAll world.cim source = none ∧ value = []) →
      Served state after →
      Listed world session state table key source whole keep (.ok value, after)

/-- A finished listing is complete exactly if the fold was. -/
structure Finishes {α β : Type} (add : β → α → β) (start : β)
    (finish : Fetched β → Fetched (List Text)) (whole : List α → List Text) : Prop where
  complete : ∀ items, finish ⟨items.foldl add start, true⟩ = ⟨whole items, true⟩
  incomplete : ∀ found, (finish ⟨found, false⟩).complete = false

theorem run_recalling {α β : Type} (world : World) (session : Option Session) (state : EngineState)
    (table : CimState → Assoc (List Text)) (key : Text) (source : Server → Enumeration α)
    {add : β → α → β} {start : β} {finish : Fetched β → Fetched (List Text)}
    {whole : List α → List Text} (finishes : Finishes add start finish whole)
    (keep : List Text → CimState → CimState) :
    Listed world session state table key source whole keep
      (Engine.run world state (recalling table key (keeping keep (withSession [] fun live =>
        listing session add start finish (source live))))) := by
  cases known : Assoc.get? (table state.cim) key with
  | some listed =>
      rw [run_recalling_known _ known]
      exact .recalled known
  | none =>
      rw [run_recalling_unknown _ known, keeping, Engine.run_bind]
      have fetching := run_listing world session state source add start finish
      generalize Engine.run world state (withSession [] _) = ran at fetching
      cases fetching with
      | missing missing served => exact .passed known (fun _ => ⟨missing, rfl⟩) served
      | whole reached quiet served =>
          rw [finishes.complete]
          exact .kept known reached quiet served
      | part found below stopped served =>
          have notKept := finishes.incomplete
          simp only [Engine.goOn_ok, notKept]
          refine .passed known (fun quiet => ?_) served
          exact absurd (quiet _) (stopped.not_uninterrupted below)

/-- The names of some classes, sorted. -/
def sortedClassNames (classes : List ClassInfo) : List Text :=
  sortIgnoringCase id (classes.map (·.className))

/-- The distinct names among those of associated classes, sorted. -/
def sortedDistinct (names : List Text) : List Text :=
  sortIgnoringCase id (Assoc.values (namesByCase [] names))

theorem classNames_listed (world : World) (session : Option Session) (state : EngineState)
    (nameSpace : Text) :
    Listed world session state CimState.classNames (Text.lower nameSpace) (·.classes nameSpace)
      sortedClassNames (keepNames (Text.lower nameSpace))
      (Engine.run world state (classNames session nameSpace)) := by
  rw [classNames_eq]
  refine run_recalling world session state _ _ _ ⟨fun items => ?_, fun found => rfl⟩ _
  rw [← List.flatMap_eq_foldl, ← List.map_eq_flatMap]
  rfl

theorem associatedNames_listed (world : World) (session : Option Session) (state : EngineState)
    (nameSpace className : Text) :
    Listed world session state CimState.associations (classKey nameSpace className)
      (·.associated nameSpace className) sortedDistinct
      (keepAssociations (classKey nameSpace className))
      (Engine.run world state (associatedNames session nameSpace className)) := by
  rw [associatedNames_eq]
  exact run_recalling world session state _ _ _ ⟨fun items => rfl, fun found => rfl⟩ _

def keepClass (key : Text) (info : ClassInfo) (known : CimState) : CimState :=
  { known with classes := Assoc.set known.classes key info }

/-- How a request for a class ends. -/
inductive ClassFound (world : World) (session : Option Session) (state : EngineState)
    (nameSpace className : Text) : Except Failure (Option ClassInfo) × EngineState → Prop where
  | recalled {info : ClassInfo} :
      Assoc.get? state.cim.classes (classKey nameSpace className) = some info →
      ClassFound world session state nameSpace className (.ok (some info), state)
  | stopped {polls : Nat} :
      Assoc.get? state.cim.classes (classKey nameSpace className) = none →
      ¬Uninterrupted session state 1 →
      ClassFound world session state nameSpace className (.ok none, polled state polls)
  | kept {info : ClassInfo} {after : EngineState} :
      Assoc.get? state.cim.classes (classKey nameSpace className) = none →
      Uninterrupted session state 1 →
      reach world.cim (·.classInfo nameSpace className) = some (some info) → Served state after →
      ClassFound world session state nameSpace className
        (.ok (some info), learning (keepClass (classKey nameSpace className) info) after)
  | missing {after : EngineState} :
      Assoc.get? state.cim.classes (classKey nameSpace className) = none →
      (reach world.cim (·.classInfo nameSpace className)).join = none → Served state after →
      ClassFound world session state nameSpace className (.ok none, after)

theorem Served.ofPolled {state after : EngineState} {polls : Nat}
    (served : Served (polled state polls) after) : Served state after := by
  cases served with
  | unopened more => exact .unopened more
  | closed more => exact .closed more

theorem run_single (world : World) (state : EngineState) (nameSpace className : Text) :
    ∃ after complete, Served state after ∧
      Engine.run world state (withSession none fun live =>
        single (live.classInfo nameSpace className)) =
          (.ok ⟨(reach world.cim (·.classInfo nameSpace className)).join, complete⟩, after) := by
  cases found : world.cim with
  | none =>
      rw [run_withSession_absent none _ state found]
      exact ⟨state, false, .unopened state.polls, rfl⟩
  | some live =>
      by_cases opens : live.opens
      · have asked : Engine.run world (opening state)
            (single (live.classInfo nameSpace className)) =
              (.ok ((live.classInfo nameSpace className).map fun found => ⟨found, true⟩),
                polled (opening state) state.polls) := rfl
        rw [run_withSession none (fun live => single (live.classInfo nameSpace className)) state
          found opens asked, reach, Option.bind_some, if_pos opens]
        cases live.classInfo nameSpace className with
        | none => exact ⟨_, false, .closed state.polls, rfl⟩
        | some answer => exact ⟨_, true, .closed state.polls, rfl⟩
      · rw [run_withSession_closed none _ state found opens, reach, Option.bind_some, if_neg opens]
        exact ⟨state, false, .unopened state.polls, rfl⟩

theorem classInfo_found (world : World) (session : Option Session) (state : EngineState)
    (nameSpace className : Text) :
    ClassFound world session state nameSpace className
      (Engine.run world state (classInfo session nameSpace className)) := by
  rw [classInfo, Engine.run_bind, Engine.run_get, Engine.goOn_ok]
  cases known : Assoc.get? state.cim.classes (classKey nameSpace className) with
  | some info => exact .recalled known
  | none =>
      obtain ⟨polls, asked, -⟩ := run_isStopped world state session
      rw [Engine.run_bind, asked, Engine.goOn_ok]
      cases first : stopsAhead session state 0 with
      | true =>
          refine .stopped known fun quiet => ?_
          rw [quiet 0 Nat.one_pos] at first
          contradiction
      | false =>
          have quiet : Uninterrupted session state 1 := by
            intro ahead below
            rwa [Nat.lt_one_iff.mp below]
          obtain ⟨after, complete, served, ran⟩ :=
            run_single world (polled state polls) nameSpace className
          rw [if_neg (by simp), Engine.run_bind]
          simp only [single] at ran
          rw [ran, Engine.goOn_ok]
          cases answer : (reach world.cim (·.classInfo nameSpace className)).join with
          | none => exact .missing known answer served.ofPolled
          | some info =>
              exact .kept known quiet (Option.join_eq_some_iff.mp answer) served.ofPolled

/-- The child namespaces as they are listed. -/
def sortedChildren (nameSpace : Text) (names : List (Option Text)) : List Text :=
  sortIgnoringCase id (names.flatMap fun name => name.toList.map fun n => nameSpace ++ "/" ++ n)

theorem childNamespaces_served (world : World) (session : Option Session) (state : EngineState)
    (nameSpace : Text) :
    ∃ value after, Served state after ∧
      Engine.run world state (childNamespaces session nameSpace) = (.ok value, after) ∧
      ((∀ total, Uninterrupted session state total) →
        value = ((reachAll world.cim (·.childNames nameSpace)).map
          (sortedChildren nameSpace)).getD []) := by
  have fetching : Fetching world session state (·.childNames nameSpace) _ [] _
      (Engine.run world state (listedChildren session nameSpace)) := run_listing ..
  rw [childNamespaces_eq, Engine.run_bind]
  generalize Engine.run world state (listedChildren session nameSpace) = ran at fetching
  cases fetching with
  | missing missing served => exact ⟨[], _, served, rfl, fun _ => by rw [missing]; rfl⟩
  | whole reached quiet served =>
      refine ⟨_, _, served, rfl, fun _ => ?_⟩
      rw [reached, Option.map_some, Option.getD_some, sortedChildren, List.flatMap_eq_foldl]
  | part found below stopped served =>
      refine ⟨_, _, served, rfl, fun quiet => ?_⟩
      exact absurd (quiet _) (stopped.not_uninterrupted below)

end TabCompletion.Cim
