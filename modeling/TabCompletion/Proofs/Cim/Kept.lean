import Mathlib.Data.List.Induction
import TabCompletion.Paths.Memory
import TabCompletion.Proofs.Cim.Request

/-!
What is known of servers over a run of requests, with servers that may fail at any of their calls
and sessions that may be stopped at any poll. A kept listing is what one request listed to its end;
what is known stays known; a request that breaks off leaves the tables as they are; and every session
that was opened is closed once.
-/

namespace TabCompletion.Cim

inductive Request where
  | classNames (nameSpace : Text)
  | associatedNames (nameSpace className : Text)
  | classInfo (nameSpace className : Text)
  | childNamespaces (nameSpace : Text)

/-- A request, the server that it meets and the session that it polls. -/
structure Turn where
  server : Option Server
  session : Option Session
  request : Request

/-- The state after a turn. -/
def Turn.after (world : World) (state : EngineState) (turn : Turn) : EngineState :=
  let world := { world with cim := turn.server }
  match turn.request with
  | .classNames nameSpace => (Engine.run world state (classNames turn.session nameSpace)).2
  | .associatedNames nameSpace className =>
      (Engine.run world state (associatedNames turn.session nameSpace className)).2
  | .classInfo nameSpace className =>
      (Engine.run world state (classInfo turn.session nameSpace className)).2
  | .childNamespaces nameSpace =>
      (Engine.run world state (childNamespaces turn.session nameSpace)).2

/-- The state after some turns. -/
def replay (world : World) (turns : List Turn) (state : EngineState) : EngineState :=
  turns.foldl (Turn.after world) state

/-! One turn. -/

/-- What a turn can do: it leaves the tables as they are, or adds what it fetched to the end. -/
inductive Turned (state : EngineState) : Turn → EngineState → Prop where
  | passed {turn : Turn} {after : EngineState} : Served state after → Turned state turn after
  | classNames {server : Option Server} {session : Option Session} {nameSpace : Text}
      {items : List ClassInfo} {after : EngineState} :
      Assoc.get? state.cim.classNames (Text.lower nameSpace) = none →
      reachAll server (·.classes nameSpace) = some items →
      Uninterrupted session state items.length → Served state after →
      Turned state ⟨server, session, .classNames nameSpace⟩
        (learning (keepNames (Text.lower nameSpace) (sortedClassNames items)) after)
  | associations {server : Option Server} {session : Option Session} {nameSpace className : Text}
      {names : List Text} {after : EngineState} :
      Assoc.get? state.cim.associations (classKey nameSpace className) = none →
      reachAll server (·.associated nameSpace className) = some names →
      Uninterrupted session state names.length → Served state after →
      Turned state ⟨server, session, .associatedNames nameSpace className⟩
        (learning (keepAssociations (classKey nameSpace className) (sortedDistinct names)) after)
  | class {server : Option Server} {session : Option Session} {nameSpace className : Text}
      {info : ClassInfo} {after : EngineState} :
      Assoc.get? state.cim.classes (classKey nameSpace className) = none →
      reach server (·.classInfo nameSpace className) = some (some info) →
      Uninterrupted session state 1 → Served state after →
      Turned state ⟨server, session, .classInfo nameSpace className⟩
        (learning (keepClass (classKey nameSpace className) info) after)

/-- A turn that keeps a listing adds it, and any other one leaves the tables as they are. -/
theorem Listed.turned {α : Type} {world : World} {session : Option Session} {state : EngineState}
    {table : CimState → Assoc (List Text)} {key : Text} {source : Server → Enumeration α}
    {whole : List α → List Text} {keep : List Text → CimState → CimState} {turn : Turn}
    {ran : Except Failure (List Text) × EngineState}
    (listed : Listed world session state table key source whole keep ran)
    (adds : ∀ {items after}, Assoc.get? (table state.cim) key = none →
      reachAll world.cim source = some items → Uninterrupted session state items.length →
      Served state after → Turned state turn (learning (keep (whole items)) after)) :
    Turned state turn ran.2 := by
  cases listed with
  | recalled known => exact .passed (.unopened state.polls)
  | kept unknown reached quiet served => exact adds unknown reached quiet served
  | passed unknown vain served => exact .passed served

theorem turned (world : World) (state : EngineState) (turn : Turn) :
    Turned state turn (turn.after world state) := by
  obtain ⟨server, session, request⟩ := turn
  let world' : World := { world with cim := server }
  cases request with
  | classNames nameSpace =>
      exact (classNames_listed world' session state nameSpace).turned .classNames
  | associatedNames nameSpace className =>
      exact (associatedNames_listed world' session state nameSpace className).turned .associations
  | classInfo nameSpace className =>
      have found := classInfo_found world' session state nameSpace className
      change Turned state _ (Engine.run world' state (classInfo session nameSpace className)).2
      generalize Engine.run world' state (classInfo session nameSpace className) = ran at found ⊢
      cases found with
      | recalled known => exact .passed (.unopened state.polls)
      | stopped unknown stops => exact .passed (.unopened _)
      | kept unknown quiet reached served => exact .class unknown reached quiet served
      | missing unknown missing served => exact .passed served
  | childNamespaces nameSpace =>
      obtain ⟨value, after, served, ran, -⟩ := childNamespaces_served world' session state nameSpace
      change Turned state _ (Engine.run world' state (childNamespaces session nameSpace)).2
      rw [ran]
      exact .passed served

/-! What is known stays known. -/

/-- What the one knows the other knows too. -/
structure Extends (before after : CimState) : Prop where
  classNames : ∀ {key listed}, Assoc.get? before.classNames key = some listed →
    Assoc.get? after.classNames key = some listed
  associations : ∀ {key listed}, Assoc.get? before.associations key = some listed →
    Assoc.get? after.associations key = some listed
  classes : ∀ {key info}, Assoc.get? before.classes key = some info →
    Assoc.get? after.classes key = some info

/-- Both know exactly the same. -/
structure SameTables (before after : CimState) : Prop where
  classNames : after.classNames = before.classNames
  associations : after.associations = before.associations
  classes : after.classes = before.classes

theorem SameTables.extends {before after : CimState} (same : SameTables before after) :
    Extends before after := by
  constructor
  · intro key listed known
    rwa [same.classNames]
  · intro key listed known
    rwa [same.associations]
  · intro key info known
    rwa [same.classes]

theorem Extends.trans {first second third : CimState} (left : Extends first second)
    (right : Extends second third) : Extends first third :=
  ⟨fun known => right.classNames (left.classNames known),
    fun known => right.associations (left.associations known),
    fun known => right.classes (left.classes known)⟩

theorem Served.sameTables {state after : EngineState} (served : Served state after) :
    SameTables state.cim after.cim := by
  cases served <;> exact ⟨rfl, rfl, rfl⟩

/-- Setting a key that is not there keeps all that is. -/
theorem get?_set_absent {α : Type} {table : Assoc α} {key other : Text} {value found : α}
    (absent : Assoc.get? table key = none) (known : Assoc.get? table other = some found) :
    Assoc.get? (Assoc.set table key value) other = some found := by
  rw [Assoc.get?_set]
  by_cases same : other = key
  · rw [same, absent] at known
    contradiction
  · rwa [if_neg same]

theorem turned_extends {state after : EngineState} {turn : Turn} (step : Turned state turn after) :
    Extends state.cim after.cim := by
  cases step with
  | passed served => exact served.sameTables.extends
  | classNames unknown reached quiet served =>
      have same := served.sameTables
      rw [← same.classNames] at unknown
      exact same.extends.trans ⟨get?_set_absent unknown, id, id⟩
  | associations unknown reached quiet served =>
      have same := served.sameTables
      rw [← same.associations] at unknown
      exact same.extends.trans ⟨id, get?_set_absent unknown, id⟩
  | «class» unknown reached quiet served =>
      have same := served.sameTables
      rw [← same.classes] at unknown
      exact same.extends.trans ⟨id, id, get?_set_absent unknown⟩

theorem replay_extends (world : World) (turns : List Turn) (state : EngineState) :
    Extends state.cim (replay world turns state).cim := by
  induction turns generalizing state with
  | nil => exact ⟨id, id, id⟩
  | cons turn rest ih => exact (turned_extends (turned world state turn)).trans (ih _)

/-! Requests that break off. -/

/-- An enumeration that does not come to its end: no session is opened, the query fails at once or
after some items, or the session is stopped before the last item. -/
def Broken {α : Type} (server : Option Server) (source : Server → Enumeration α)
    (session : Option Session) (state : EngineState) : Prop :=
  reachAll server source = none ∨
    ∃ items, reachAll server source = some items ∧ ¬Uninterrupted session state items.length

def Turn.BreaksOff (turn : Turn) (state : EngineState) : Prop :=
  match turn.request with
  | .classNames nameSpace => Broken turn.server (·.classes nameSpace) turn.session state
  | .associatedNames nameSpace className =>
      Broken turn.server (·.associated nameSpace className) turn.session state
  | .classInfo nameSpace className =>
      reach turn.server (·.classInfo nameSpace className) = none ∨
        ¬Uninterrupted turn.session state 1
  | .childNamespaces nameSpace => Broken turn.server (·.childNames nameSpace) turn.session state

theorem not_broken {α : Type} {server : Option Server} {source : Server → Enumeration α}
    {session : Option Session} {state : EngineState} {items : List α}
    (reached : reachAll server source = some items)
    (quiet : Uninterrupted session state items.length) : ¬Broken server source session state := by
  rintro (missing | ⟨others, reached', broken⟩)
  · rw [missing] at reached
    contradiction
  · rw [reached] at reached'
    exact broken (Option.some.inj reached' ▸ quiet)

theorem turned_breaksOff {state after : EngineState} {turn : Turn} (step : Turned state turn after)
    (breaksOff : turn.BreaksOff state) : SameTables state.cim after.cim := by
  cases step with
  | passed served => exact served.sameTables
  | classNames unknown reached quiet served => exact absurd breaksOff (not_broken reached quiet)
  | associations unknown reached quiet served => exact absurd breaksOff (not_broken reached quiet)
  | «class» unknown reached quiet served =>
      rcases breaksOff with missing | stopped
      · simp only at missing
        rw [missing] at reached
        contradiction
      · exact absurd quiet stopped

/-! Where kept listings come from. -/

/-- In the turn the classes of a namespace were listed to their end; this is the listing. -/
def Turn.ListsClasses (turn : Turn) (state : EngineState) (key : Text) (listed : List Text) : Prop :=
  ∃ nameSpace items, turn.request = .classNames nameSpace ∧ key = Text.lower nameSpace ∧
    reachAll turn.server (·.classes nameSpace) = some items ∧
    Uninterrupted turn.session state items.length ∧ SortedFrom (items.map (·.className)) listed

/-- In the turn the associations of a class were listed to their end; this is the listing. -/
def Turn.ListsAssociations (turn : Turn) (state : EngineState) (key : Text) (listed : List Text) :
    Prop :=
  ∃ nameSpace className names, turn.request = .associatedNames nameSpace className ∧
    key = classKey nameSpace className ∧
    reachAll turn.server (·.associated nameSpace className) = some names ∧
    Uninterrupted turn.session state names.length ∧ DistinctFrom names listed

theorem turned_classNames {state after : EngineState} {turn : Turn} (step : Turned state turn after)
    {key : Text} {listed : List Text} (known : Assoc.get? after.cim.classNames key = some listed) :
    Assoc.get? state.cim.classNames key = some listed ∨ turn.ListsClasses state key listed := by
  cases step with
  | passed served =>
      rw [served.sameTables.classNames] at known
      exact Or.inl known
  | classNames unknown reached quiet served =>
      simp only [learning, keepNames, Assoc.get?_set] at known
      split at known
      · cases known
        exact Or.inr ⟨_, _, rfl, ‹_›, reached, quiet, sortIgnoringCase_sortedFrom _⟩
      · rw [served.sameTables.classNames] at known
        exact Or.inl known
  | associations _ _ _ served | «class» _ _ _ served =>
      exact Or.inl (served.sameTables.classNames ▸ known)

theorem turned_associations {state after : EngineState} {turn : Turn}
    (step : Turned state turn after) {key : Text} {listed : List Text}
    (known : Assoc.get? after.cim.associations key = some listed) :
    Assoc.get? state.cim.associations key = some listed ∨
      turn.ListsAssociations state key listed := by
  cases step with
  | passed served =>
      rw [served.sameTables.associations] at known
      exact Or.inl known
  | associations unknown reached quiet served =>
      simp only [learning, keepAssociations, Assoc.get?_set] at known
      split at known
      · cases known
        exact Or.inr ⟨_, _, _, rfl, ‹_›, reached, quiet, sorted_namesByCase_distinctFrom _⟩
      · rw [served.sameTables.associations] at known
        exact Or.inl known
  | classNames _ _ _ served | «class» _ _ _ served =>
      exact Or.inl (served.sameTables.associations ▸ known)

/-- Some turn of a run, met in the state that the turns before it left. -/
def During (world : World) (turns : List Turn) (state : EngineState)
    (holds : Turn → EngineState → Prop) : Prop :=
  ∃ earlier turn later, turns = earlier ++ turn :: later ∧ holds turn (replay world earlier state)

/-- What every entry was at some turn, if each turn adds only such entries and there was none. -/
theorem replay_entry (entry : EngineState → Prop) {world : World} {state : EngineState}
    {adds : Turn → EngineState → Prop} (absent : ¬entry state)
    (step : ∀ turn before, entry (turn.after world before) → entry before ∨ adds turn before)
    (turns : List Turn) (present : entry (replay world turns state)) :
    During world turns state adds := by
  -- The induction takes the turns away from the end: an entry is older than the last turn or new.
  induction turns using List.reverseRecOn with
  | nil => exact absurd present absent
  | append_singleton turns turn ih =>
      have last : replay world (turns ++ [turn]) state =
          turn.after world (replay world turns state) := by
        simp [replay]
      rw [last] at present
      rcases step turn _ present with older | added
      · obtain ⟨earlier, first, later, split, held⟩ := ih older
        exact ⟨earlier, first, later ++ [turn], by simp [split], held⟩
      · exact ⟨turns, turn, [], rfl, added⟩

/-! Sessions are closed. -/

theorem served_closed {state after : EngineState} (served : Served state after)
    (closed : state.cim.disposed = List.range state.cim.opened) :
    after.cim.disposed = List.range after.cim.opened := by
  cases served with
  | unopened polls => exact closed
  | closed polls =>
      change state.cim.disposed ++ [state.cim.opened] = List.range (state.cim.opened + 1)
      rw [closed, List.range_succ]

theorem turned_closed {state after : EngineState} {turn : Turn} (step : Turned state turn after)
    (closed : state.cim.disposed = List.range state.cim.opened) :
    after.cim.disposed = List.range after.cim.opened := by
  cases step with
  | passed served | classNames _ _ _ served | associations _ _ _ served | «class» _ _ _ served =>
      have done := served_closed served closed
      exact done

theorem replay_closed (world : World) (turns : List Turn) {state : EngineState}
    (closed : state.cim.disposed = List.range state.cim.opened) :
    (replay world turns state).cim.disposed =
      List.range (replay world turns state).cim.opened := by
  induction turns generalizing state with
  | nil => exact closed
  | cons turn rest ih => exact ih (turned_closed (turned world state turn) closed)

/-- What is known after any run from nothing known. Every kept listing of classes or associations is
the sorted one of a request of the run that listed to the end; it is never changed afterwards; a
request that breaks off changes no table; and after every request the sessions that were opened are
closed, each once. -/
theorem kept_listings_are_complete (world : World) (start : EngineState) (turns : List Turn) :
    let fresh : EngineState := { start with cim := {} }
    let state := replay world turns fresh
    (∀ key listed, Assoc.get? state.cim.classNames key = some listed →
      During world turns fresh fun turn before => turn.ListsClasses before key listed) ∧
    (∀ key listed, Assoc.get? state.cim.associations key = some listed →
      During world turns fresh fun turn before => turn.ListsAssociations before key listed) ∧
    (∀ later, Extends state.cim (replay world later state).cim) ∧
    (∀ turn : Turn, turn.BreaksOff state → SameTables state.cim (turn.after world state).cim) ∧
    state.cim.disposed = List.range state.cim.opened := by
  intro fresh state
  refine ⟨fun key listed known => ?_, fun key listed known => ?_, ?_, ?_, ?_⟩
  · refine replay_entry (fun s => Assoc.get? s.cim.classNames key = some listed)
      (by simp [fresh, Assoc.get?]) (fun turn before => ?_) turns known
    exact turned_classNames (turned world before turn)
  · refine replay_entry (fun s => Assoc.get? s.cim.associations key = some listed)
      (by simp [fresh, Assoc.get?]) (fun turn before => ?_) turns known
    exact turned_associations (turned world before turn)
  · exact fun later => replay_extends world later state
  · exact fun turn => turned_breaksOff (turned world state turn)
  · exact replay_closed world turns rfl

/-- A request for the classes of one namespace that is stopped at the second class, the same one with
a server that fails at once and with one that fails after the first class, and the same one
undisturbed; no session closes without a failure. -/
def disturbedTurns : List Turn :=
  let classes : List ClassInfo := ["b", "A"].map fun name : String => ⟨"root", name, [], []⟩
  let server (count : Nat) (fails : Bool) : Server :=
    { Table.toServer { classes := [], namespaces := [], associators := [] } with
      closes := false
      classes := fun _ => { items := classes.take count, fails } }
  let session (limit : Nat) : Session :=
    { execute := fun _ => .items [], readVariable := fun _ => .undefined, stopsAt := (· == limit) }
  [⟨some (server 2 false), some (session 1), .classNames "root"⟩,
    ⟨some (server 0 true), none, .classNames "ROOT"⟩,
    ⟨some (server 1 true), some (session 9), .classNames "rOOT"⟩,
    ⟨some (server 2 false), some (session 9), .classNames "Root"⟩]

theorem undisturbed_listing_is_kept :
    let world : World := { paths := MemoryPaths.provider [] "/" "/" [] }
    (∃ listed, Assoc.get? (replay world disturbedTurns {}).cim.classNames "root" = some listed ∧
      During world disturbedTurns {} fun turn before => turn.ListsClasses before "root" listed) ∧
    (replay world disturbedTurns {}).cim.disposed = [0, 1, 2, 3] := by
  intro world
  have complete := kept_listings_are_complete world {} disturbedTurns
  -- The fresh state is the empty one by its fields, before any turn of the run is unfolded.
  dsimp only at complete
  have known : (Assoc.get? (replay world disturbedTurns {}).cim.classNames "root").isSome = true := by
    decide +kernel
  obtain ⟨listed, found⟩ := Option.isSome_iff_exists.mp known
  have opened : (replay world disturbedTurns {}).cim.opened = 4 := by decide +kernel
  exact ⟨⟨listed, found, complete.1 _ _ found⟩,
    complete.2.2.2.2.trans (congrArg List.range opened)⟩

end TabCompletion.Cim
