import TabCompletion.Binding.Table
import TabCompletion.Paths.Memory
import TabCompletion.Proofs.Cim.Tame
import TabCompletion.Proofs.Engine.Call
import TabCompletion.Proofs.Text.Literals

/-!
A failing collaborator cannot be told from one that has nothing to say. The tame world answers
emptily where a world fails; every call gives the same answer in both and makes the same queries. Of
management servers this needs two things: that a failing listing of associations is not a matter of
names that are kept under one key, and that a late failure does not move a stop to another item.
-/

namespace TabCompletion

/-! Tame collaborators. -/

/-- Where a command fails there are no items. A broken contract stays. -/
def Session.tame (session : Session) : Session :=
  { session with execute := fun q => match session.execute q with
      | .failed _ => .items []
      | answer => answer }

/-- A server that is not reached has no shares. -/
def PathProvider.tame (paths : PathProvider) : PathProvider :=
  { paths with shares := fun server => some ((paths.shares server).getD []) }

/-- Every collaborator tame. -/
def World.tame (world : World) : World :=
  { session := world.session.map Session.tame
    binder := world.binder.map Binder.quiet
    parse := world.parse
    paths := world.paths.tame
    cim := world.cim.map Cim.Server.tame }

def Context.tame (c : Context) : Context :=
  { c with
    binding := c.binding.map Binding.quiet
    completers := Assoc.mapValues quietCompleter c.completers
    session := c.session.map Session.tame }

def RequestOptions.tame (request : RequestOptions) : RequestOptions :=
  { request with
    session := request.session.map Session.tame
    completers := Assoc.mapValues quietCompleter request.completers }

namespace Engine

/-- The call with the collaborators that it brings along tame. -/
def Call.tame : Call → Call
  | .input text cursor request => .input text cursor request.tame
  | .ofContext c operation => .ofContext c.tame operation
  | .ofWord operation => .ofWord operation

/-! The two worlds. -/

/-- A world and the tame one. A pattern may be refused for shares that only the tame world has. If
`steady` holds the sessions say the same at every poll. -/
def taming (world : World) (steady : Prop) : Pairing :=
  { left := world
    right := world.tame
    sessions := fun session tamed =>
      tamed = session.map Session.tame ∧ (steady → Cim.Unwavering session)
    excused := fun failure => ∃ error, failure = .pattern error
    failed := fun _ s t => s.queries = t.queries }

variable {world : World} {steady : Prop} {known : CimState → CimState → Prop}

theorem stopsAt_tame (session : Option Session) :
    session.map (·.stopsAt) = (session.map Session.tame).map (·.stopsAt) := by
  cases session <;> rfl

theorem catalog_tame : Agree (taming world steady) (Cim.Tamed steady known) catalog catalog := by
  rintro ⟨_, _, made, _, _, _, _, _⟩ _ ⟨cim, polls, states, timely⟩
  cases made with
  | none => exact .answered rfl ⟨cim, polls, states, timely⟩
  | some made => exact .answered rfl ⟨cim, polls, states, timely⟩

theorem query_tame (session : Option Session) (q : Query) :
    Agree (taming world steady) (Cim.Tamed steady known) (query session q)
      (query (session.map Session.tame) q) := by
  -- The query is noted before the command is run, so a failed command counts as well.
  cases session with
  | none => exact agree_pure []
  | some live =>
      refine alike_ite (fun _ => agree_pure []) fun _ => ?_
      have sameQueries : ∀ s t, Cim.Tamed steady known s t → s.queries = t.queries := by
        rintro s _ ⟨cim, polls, states, timely⟩
        rfl
      refine alike_update (Cim.Tamed steady known) ?_ ?_
      · rintro s _ ⟨cim, polls, states, timely⟩
        exact .intro (s := { s with queries := s.queries ++ [q] }) cim polls states timely
      · simp only [Session.tame]
        cases live.execute q with
        | items values => exact agree_pure values
        | failed message => exact agree_pure []
        | notList kind => exact alike_throw sameQueries
        | broken collaborator message => exact alike_throw sameQueries

section Servers

variable (byKey : ∀ server, world.cim = some server → server.FailsByKey)
  (timely : steady ∨ ∀ server, world.cim = some server → server.FailsAtOnce)

include byKey timely

theorem taming_concord (names : Assoc (List Text) → Assoc (List Text) → Prop) :
    Concord (taming world steady) (Cim.Tamed steady (Cim.Covers world.cim names)) where
  parse := rfl
  binder := (option_map_quiet Binder.quiet_quiet world.binder).symm
  paths := rfl
  shares := by
    intro server
    cases found : world.paths.shares server with
    | none => exact Or.inr ⟨found, by simp [taming, World.tame, PathProvider.tame, found],
        fun error => ⟨error, rfl⟩⟩
    | some shares =>
        exact Or.inl (by simp [taming, World.tame, PathProvider.tame, found])
  surface := by
    rintro session _ ⟨rfl, -⟩
    cases session <;> rfl
  registry := by
    rintro s _ ⟨cim, polls, states, -⟩
    rfl
  attachments := by
    rintro s _ ⟨cim, polls, states, -⟩
    rfl
  refused := by
    rintro failure _ s _ ⟨cim, polls, states, -⟩
    rfl
  endless := by
    rintro s _ typeName ⟨cim, polls, states, -⟩ _
    rfl
  catalog := catalog_tame
  query := by
    rintro session _ ⟨rfl, -⟩ q _
    exact query_tame session q
  isStopped := by
    rintro session _ ⟨rfl, steadily⟩
    exact Cim.isStopped_agree (stopsAt_tame session) steadily
  classInfo := by
    rintro session _ ⟨rfl, steadily⟩ nameSpace className
    exact Cim.classInfo_agree rfl rfl (stopsAt_tame session) steadily nameSpace className
  associatedNames := by
    rintro session _ ⟨rfl, steadily⟩ nameSpace className
    exact Cim.associatedNames_agree rfl rfl (stopsAt_tame session) steadily byKey nameSpace
      className timely
  childNamespaces := by
    rintro session _ ⟨rfl, steadily⟩ nameSpace
    exact Cim.childNamespaces_agree rfl rfl (stopsAt_tame session) steadily nameSpace timely

theorem taming_passage : Passage (taming world steady)
    (Cim.Tamed steady (Cim.Covers world.cim Eq))
    (Cim.Tamed steady (Cim.Covers world.cim fun _ _ => True)) where
  starts := taming_concord byKey timely Eq
  ends := taming_concord byKey timely fun _ _ => True
  weaker := by
    rintro s _ ⟨cim, polls, covers, samePolls⟩
    exact .intro cim polls (covers.ofNames trivial) samePolls
  classNames := by
    rintro session _ ⟨rfl, steadily⟩ nameSpace
    exact Cim.classNames_alike rfl rfl (stopsAt_tame session) steadily nameSpace timely

end Servers

theorem call_tame (call : Call) (steadily : steady → Cim.Unwavering (call.session? world)) :
    call.Corresponds (taming world steady) call.tame := by
  cases call with
  | input text cursor request =>
      refine .input text cursor request _ _ ⟨?_, steadily⟩ (mapValues_quiet quietCompleter_quiet _).symm
      change (request.session.map Session.tame).or (world.session.map Session.tame) = _
      rw [Option.map_or]
      rfl
  | ofContext c operation =>
      exact .ofContext operation (.intro _ _ _ (option_map_quiet Binding.quiet_quiet _).symm
        (mapValues_quiet quietCompleter_quiet _).symm ⟨rfl, steadily⟩)
  | ofWord operation => exact .ofWord operation ⟨rfl, steadily⟩

/-- Ordinary failures are empty answers. From every state, every call gives the same answer in a
world and in the tame one, or fails alike, and makes the same queries, unless the tame run ends at a
refused pattern. A management server has to fail by key for associations; and where enumerations fail
after some items, the session has to say the same at every poll. -/
theorem failures_are_empty_answers (world : World) (state : EngineState) (call : Call)
    (byKey : ∀ server, world.cim = some server → server.FailsByKey)
    (timely : Cim.Unwavering (call.session? world) ∨
      ∀ server, world.cim = some server → server.FailsAtOnce)
    (accepted : ∀ error, (run world.tame state call.tame.perform).1 ≠ .error (.pattern error)) :
    (run world state call.perform).1 = (run world.tame state call.tame.perform).1 ∧
      (run world state call.perform).2.queries =
        (run world.tame state call.tame.perform).2.queries := by
  let steady := Cim.Unwavering (call.session? world)
  have start : Cim.Tamed steady (Cim.Covers world.cim Eq) state state :=
    .intro state.cim state.polls ⟨rfl, fun _ => Or.inl rfl, rfl⟩ (Or.inr rfl)
  -- The same state is known of both at the start, and class names are listed once at most.
  have ended : Ends (taming world steady)
      (Cim.Tamed steady (Cim.Covers world.cim fun _ _ => True)) Eq
      (run world state call.perform) (run world.tame state call.tame.perform) :=
    perform_alike (taming_passage byKey timely) (call_tame call id) state state start
  generalize run world state call.perform = ran at ended ⊢
  generalize run world.tame state call.tame.perform = ran' at accepted ended ⊢
  cases ended with
  | answered same states =>
      obtain ⟨cim, polls, covers, -⟩ := states
      exact ⟨congrArg Except.ok same, rfl⟩
  | failed states => exact ⟨rfl, states⟩
  | excused isExcused =>
      obtain ⟨error, rfl⟩ := isExcused
      exact absurd rfl (accepted error)

/-- A world in which every command fails, no server is reached and associations are not listed. -/
def failingWorld : World :=
  { session := some { execute := fun q => .failed q.command, readVariable := fun _ => .undefined }
    paths := MemoryPaths.provider [] "/" "/" []
    cim := some (Cim.Table.toServer
      { classes := [], namespaces := [], associators := [], failsOn := some .queryAssociators }) }

theorem failing_query_is_empty :
    let call := Call.ofWord (.variableName "tru")
    (run failingWorld {} call.perform).2.queries.map (·.command) = [Text.ofString "Get-Variable"] ∧
      (run failingWorld {} call.perform).1 = (run failingWorld.tame {} call.tame.perform).1 ∧
      (run failingWorld {} call.perform).2.queries =
        (run failingWorld.tame {} call.tame.perform).2.queries := by
  intro call
  refine ⟨by decide +kernel, failures_are_empty_answers failingWorld {} call ?_ (Or.inl ?_) ?_⟩
  · rintro server ⟨⟩ _ _ _ _ _ _
    rfl
  · rintro live ⟨⟩ poll
    rfl
  · intro error failed
    have answered : (run failingWorld.tame {} call.tame.perform).1.toOption.isSome = true := by
      decide +kernel
    rw [failed] at answered
    contradiction

/-! Failures that show. -/

/-- What a call offers from the start. -/
def offered (world : World) (call : Call) : Option (List Text) :=
  (run world {} call.perform).1.toOption.map fun answer => answer.results.map (·.text)

/-- A world and the tame one offer some texts each. -/
def Offers (world : World) (call : Call) (texts tameTexts : List Text) : Prop :=
  offered world call = some texts ∧ offered world.tame call.tame = some tameTexts

theorem offers_differently {world : World} {call : Call} {texts tameTexts : List Text}
    (offers : Offers world call texts tameTexts) (different : texts ≠ tameTexts) :
    (∀ error, (run world.tame {} call.tame.perform).1 ≠ .error (.pattern error)) ∧
      (run world {} call.perform).1 ≠ (run world.tame {} call.tame.perform).1 := by
  obtain ⟨left, right⟩ := offers
  rw [offered] at left right
  constructor
  · intro error failed
    rw [failed] at right
    contradiction
  · intro same
    rw [same, right] at left
    exact different (Option.some.inj left).symm

def associatedInput : Text := "Get-CimAssociatedInstance (Get-Each) -ResultClassName O"

/-- A command with another one in parentheses as its first argument. -/
def associatedParse : Parse :=
  let extent := Extent.ofSource associatedInput
  let word (start stop : Nat) : Node :=
    .new (extent start stop) (.stringConstant (Text.slice associatedInput start stop) .bareWord)
  let inner := Node.new (extent 27 35) (.command [word 27 35] none [])
  let argument := Node.new (extent 26 36) (.paren (.new (extent 27 35) (.pipeline [inner])))
  let parameter := Node.new (extent 37 53) (.commandParameter "ResultClassName" none)
  let outer := Node.new (extent 0 55) (.command [word 0 25, argument, parameter, word 54 55] none [])
  let token (kind : TokenKind) (start stop : Nat) : Token :=
    { kind, text := Text.slice associatedInput start stop, extent := extent start stop }
  { tree := .new (extent 0 55) (.scriptBlock none [] [.new (extent 0 55) (.pipeline [outer])])
    tokens := [token .generic 0 25, token .lParen 26 27, token .generic 27 35, token .rParen 35 36,
      token .parameter 37 53, token .generic 54 55] }

/-- A world in which the inner command gives out instances of three classes, two of which are kept
under one key; the associations of all three are asked for. -/
def associatedWorld (stopsAt : Nat → Bool) (associated : Text → Text → Cim.Enumeration Text) : World :=
  let parameters := ["InputObject", "ResultClassName"].map fun (name : String) =>
    ({ name := Text.ofString name, typeName := "System.Object", sets := [] } : Parameter)
  let outer : CommandInfo := { name := "Get-CimAssociatedInstance", parameters }
  let inner : CommandInfo :=
    { name := "Get-Each"
      outputTypes := [Cim.typeName "A:b" "c", Cim.typeName "a" "b:c", Cim.typeName "root" "d"] }
  { session := some { execute := fun _ => .items [], readVariable := fun _ => .undefined, stopsAt }
    parse := some fun _ _ => associatedParse
    binder := some (CommandTable.toBinder { commands := [outer, inner] })
    paths := MemoryPaths.provider [] "/" "/" []
    cim := some
      { classInfo := fun _ _ => some none, classes := fun _ => { items := [] }
        childNames := fun _ => { items := [] }, associated } }

def associatedCall : Call := .input associatedInput associatedInput.length {}

/-- The listings for one key fail after an item; the session is stopped from the third poll on. -/
def lateWorld : World :=
  associatedWorld (2 ≤ ·) fun nameSpace className =>
    if Cim.classKey nameSpace className == "root:d" then { items := ["Other"] }
    else { items := ["One"], fails := true }

/-- The associations can be listed in one namespace only. -/
def colonWorld : World :=
  associatedWorld (fun _ => false) fun nameSpace _ =>
    if nameSpace == "a" then { items := ["Other"] } else { items := [], fails := true }

set_option maxRecDepth 10000 in
theorem associatedCall_offers : Offers lateWorld associatedCall [] ["Other"] ∧
    Offers colonWorld associatedCall ["Other"] [] := by
  -- The way to the tables is unfolded, so that their many literals are read from their bytes.
  delta Offers offered Call.tame Call.perform completeInput Analysis.results Analysis.route
    Analysis.routeWith Analysis.atToken Analysis.wordToken Analysis.plainWord
    Analysis.wordAsArgument Completion.argumentValues Completion.parameterValues
    Completion.nativeValues? NativeTable.bundled NativeTable.bundledEntries
  delta Registry.bundled Bundled.knownTypes Bundled.primitives Bundled.values Bundled.collections
    Bundled.library Bundled.automation
  rw [Text.ofString_eq]
  decide +kernel

/-- Neither condition on the server can be left out. The session is polled for the items before a late
failure, so that it stops an earlier listing than in the tame world. And where one class of a key
fails and another one does not, the empty listing that the tame server gives for the first is kept for
the second. -/
theorem failures_can_show :
    ((∀ server, lateWorld.cim = some server → server.FailsByKey) ∧
      (∀ error, (run lateWorld.tame {} associatedCall.tame.perform).1 ≠ .error (.pattern error)) ∧
      (run lateWorld {} associatedCall.perform).1 ≠
        (run lateWorld.tame {} associatedCall.tame.perform).1) ∧
    (∀ server, colonWorld.cim = some server → server.FailsAtOnce) ∧
      (∀ error, (run colonWorld.tame {} associatedCall.tame.perform).1 ≠ .error (.pattern error)) ∧
      (run colonWorld {} associatedCall.perform).1 ≠
        (run colonWorld.tame {} associatedCall.tame.perform).1 := by
  obtain ⟨late, colon⟩ := associatedCall_offers
  refine ⟨⟨?_, offers_differently late (by decide)⟩, ?_, offers_differently colon (by decide)⟩
  · rintro server ⟨⟩ nameSpace className nameSpace' className' same fails
    simpa only [same] using fails
  · rintro server ⟨⟩
    constructor
    · exact fun _ _ => rfl
    · exact fun _ _ => rfl
    · intro nameSpace className fails
      by_cases listed : nameSpace == "a"
      · simp only [if_pos listed] at fails
        contradiction
      · simp only [if_neg listed]

end Engine

end TabCompletion
