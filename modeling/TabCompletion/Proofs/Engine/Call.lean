import TabCompletion.Proofs.Analysis.Congruence

/-!
The calls that the engine takes, as data, so that a statement may speak of every call and of every
sequence of them. Corresponding calls in two worlds of concord are answered alike.
-/

namespace TabCompletion.Engine

/-- The completions of a context. -/
inductive ContextOperation where
  | command
  | moduleName (loadedOnly : Bool)
  | parameter
  | argument
  | member (isStatic : Bool)
  | variable
  | filename (wanted : Completion.PathFilter)
  | type (before after : Text)
  | nameSpace
  | hashtableKey (hashtable : Node)
  | history

def ContextOperation.complete (c : Context) : ContextOperation → Engine (List Result)
  | .command => completeCommand c
  | .moduleName loadedOnly => completeModuleName c loadedOnly
  | .parameter => completeCommandParameter c
  | .argument => completeCommandArgument c
  | .member isStatic => completeMember c isStatic
  | .variable => completeVariable c
  | .filename wanted => completeFilename c wanted
  | .type before after => completeType c before after
  | .nameSpace => completeNamespace c
  | .hashtableKey hashtable => completeHashtableKey c hashtable
  | .history => completeHistory c

/-- The completions of a word that stands alone. -/
inductive WordOperation where
  | commandName (name : Text) (moduleName : Option Text) (kinds : List Text)
  | variableName (name : Text)
  | filename (name : Text)
  | typeName (name : Text)
  | operator (word : Text)
  | statementFlags (keyword word : Text)

def WordOperation.complete : WordOperation → Engine (List Result)
  | .commandName name moduleName kinds => completeCommandName name moduleName kinds
  | .variableName name => completeVariableName name
  | .filename name => completeFilenameText name
  | .typeName name => completeTypeName name
  | .operator word => completeOperator word
  | .statementFlags keyword word => completeStatementFlags keyword word

/-- A call of the engine. -/
inductive Call where
  | input (text : Text) (cursor : Int) (request : RequestOptions)
  | ofContext (c : Context) (operation : ContextOperation)
  | ofWord (operation : WordOperation)

/-- What a call gives: results and, for an input, the index and the length of the span that they
replace. -/
structure Answer where
  results : List Result
  span : Option (Int × Int) := none

namespace Call

def perform : Call → Engine Answer
  | .input text cursor request => do
      let completion ← completeInput text cursor request
      return { results := completion.results, span := some (completion.index, completion.length) }
  | .ofContext c operation => return { results := ← operation.complete c }
  | .ofWord operation => return { results := ← operation.complete }

/-- The session that a call works with. -/
def session? (world : World) : Call → Option Session
  | .input _ _ request => request.session.or world.session
  | .ofContext c _ => c.session
  | .ofWord _ => world.session

/-- The state after a number of calls, each in a world of its own. A failed call leaves its state to
the next one. -/
def performAll (state : EngineState) (calls : List (World × Call)) : EngineState :=
  calls.foldl (fun state (world, call) => (run world state call.perform).2) state

end Call

/-! Calls side by side. -/

/-- One call with corresponding collaborators. -/
inductive Call.Corresponds (p : Pairing) : Call → Call → Prop where
  | input (text : Text) (cursor : Int) (request : RequestOptions) (session : Option Session)
      (completers : Assoc ArgumentCompleter) :
      p.sessions (request.session.or p.left.session) (session.or p.right.session) →
      Assoc.mapValues quietCompleter request.completers =
        Assoc.mapValues quietCompleter completers →
      Corresponds p (.input text cursor request)
        (.input text cursor { request with session, completers })
  | ofContext {c d : Context} (operation : ContextOperation) : c.Corresponds p d →
      Corresponds p (.ofContext c operation) (.ofContext d operation)
  | ofWord (operation : WordOperation) : p.sessions p.left.session p.right.session →
      Corresponds p (.ofWord operation) (.ofWord operation)

section Congruence

open Completion Analysis

variable {p : Pairing} {before after kept : StateRelation}

theorem guarded_alike (concord : Concord p before) (weaker : ∀ s t, before s t → after s t)
    {c d : Context} (corresponds : c.Corresponds p d) {a b : Engine (List Result)}
    (alike : Alike p before after Eq a b) :
    Alike p before after Eq (guarded c a) (guarded d b) := by
  obtain ⟨_, _, session, _, _, sameSession⟩ := corresponds
  have available : c.hasSession = session.any (·.isAvailable) := concord.isAvailable sameSession
  simp only [guarded, available]
  exact alike_ite (fun _ => alike) fun _ => alike_pure rfl weaker

theorem ofWord_corresponds (word : Text) {a b : Option Session} (sameSession : p.sessions a b) :
    (Context.ofWord word a).Corresponds p (Context.ofWord word b) :=
  .intro none [] b rfl rfl sameSession

variable (passage : Passage p before after)

include passage

theorem contextOperation_alike {c d : Context} (corresponds : c.Corresponds p d)
    (operation : ContextOperation) :
    Alike p before after Eq (operation.complete c) (operation.complete d) := by
  have concord := passage.starts
  have guardedAlike : ∀ {a b : Engine (List Result)}, Alike p before after Eq a b →
      Alike p before after Eq (guarded c a) (guarded d b) :=
    guarded_alike concord passage.weaker corresponds
  have guardedAgree : ∀ {a b : Engine (List Result)}, Agree p before a b →
      Alike p before after Eq (guarded c a) (guarded d b) :=
    fun agree => guardedAlike (passage.ofAgree agree)
  cases operation with
  | command => exact guardedAgree (commands_agree concord corresponds _)
  | moduleName loadedOnly => exact guardedAgree (moduleNames_agree concord corresponds loadedOnly)
  | parameter => exact guardedAgree (parameterNames_agree concord corresponds)
  | argument => exact guardedAlike (argumentValues_alike passage corresponds)
  | member isStatic =>
      have target : Cursor.memberTarget? d = Cursor.memberTarget? c := by
        obtain ⟨_, _, _, _, _, _⟩ := corresponds
        rfl
      refine guardedAgree ?_
      rw [target]
      cases Cursor.memberTarget? c with
      | none => exact agree_pure []
      | some target => exact members_agree concord corresponds target isStatic
  | «variable» => exact guardedAgree (variableNames_agree concord corresponds)
  | filename wanted => exact guardedAgree (fileNames_agree concord corresponds wanted)
  | type before after => exact guardedAgree (typeNames_agree concord corresponds before after)
  | nameSpace => exact guardedAgree (namespaces_agree concord corresponds)
  | hashtableKey hashtable => exact guardedAgree (hashtableKeys_agree concord corresponds hashtable)
  | history => exact guardedAgree (history_agree concord corresponds)

theorem wordOperation_alike (sameSession : p.sessions p.left.session p.right.session)
    (operation : WordOperation) :
    Alike p before after Eq operation.complete operation.complete := by
  have concord := passage.starts
  have guardedAgree : ∀ (word : Text) {a b : Engine (List Result)}, Agree p before a b →
      Alike p before after Eq (guarded (.ofWord word p.left.session) a)
        (guarded (.ofWord word p.right.session) b) :=
    fun word _ _ agree => guarded_alike concord passage.weaker (ofWord_corresponds word sameSession)
      (passage.ofAgree agree)
  have ofWord := fun word => ofWord_corresponds (p := p) word sameSession
  cases operation with
  | commandName name moduleName kinds =>
      exact alike_read (guardedAgree _ (commands_agree concord (ofWord name) _))
  | variableName name => exact alike_read (guardedAgree _ (variableNames_agree concord (ofWord _)))
  | filename name => exact alike_read (guardedAgree _ (fileNames_agree concord (ofWord _) _))
  | typeName name => exact alike_read (guardedAgree _ (typeNames_agree concord (ofWord _) _ _))
  | operator word => exact alike_read (guardedAgree _ (operators_agree concord word))
  | statementFlags keyword word =>
      exact alike_read (guardedAgree _ (statementFlags_agree concord keyword word))

theorem obstacle?_eq {a b : Option Session} (sameSession : p.sessions a b) :
    obstacle? p.left a = obstacle? p.right b := by
  simp only [obstacle?, passage.starts.isAvailable sameSession, passage.starts.parse]

theorem completeInput_alike (text : Text) (cursor : Int) (request : RequestOptions)
    {session : Option Session} {completers : Assoc ArgumentCompleter}
    (sameSession : p.sessions (request.session.or p.left.session) (session.or p.right.session))
    (sameCompleters : Assoc.mapValues quietCompleter request.completers =
      Assoc.mapValues quietCompleter completers) :
    Alike p before after Eq (completeInput text cursor request)
      (completeInput text cursor { request with session, completers }) := by
  have concord := passage.starts
  apply alike_read
  simp only [obstacle?_eq passage sameSession, concord.parse]
  -- Without an obstacle and with a parser the analysis runs; otherwise nothing is found.
  split
  · refine alike_bind after (route_steps passage _ _ (context_corresponds _ _ _ request.options
      sameSession sameCompleters)) ?_
    rintro ⟨results, final⟩ ⟨_, final'⟩ ⟨rfl, ended⟩
    obtain ⟨_, _, _, _, _, _⟩ := ended
    exact alike_ite (fun _ => agree_pure _) fun _ => agree_pure _
  · exact passage.ofAgree (agree_pure _)

/-- Corresponding calls are answered alike. -/
theorem perform_alike {a b : Call} (corresponds : a.Corresponds p b) :
    Alike p before after Eq a.perform b.perform := by
  have answered : ∀ {x y : Engine (List Result)}, Alike p before after Eq x y →
      Alike p before after Eq (do return ({ results := ← x } : Answer))
        (do return ({ results := ← y } : Answer)) := by
    intro x y alike
    refine alike_bind after alike ?_
    rintro results _ rfl
    exact agree_pure _
  cases corresponds with
  | input text cursor request session completers sameSession sameCompleters =>
      refine alike_bind after
        (completeInput_alike passage text cursor request sameSession sameCompleters) ?_
      rintro completion _ rfl
      exact agree_pure _
  | ofContext operation corresponds =>
      exact answered (contextOperation_alike passage corresponds operation)
  | ofWord operation sameSession => exact answered (wordOperation_alike passage sameSession operation)

end Congruence

/-! Calls without a session. -/

theorem guarded_unavailable {c : Context} (unavailable : c.hasSession = false)
    (completion : Engine (List Result)) : guarded c completion = pure [] := by
  simp [guarded, unavailable]

theorem guardedWord_unavailable {world : World} (state : EngineState)
    (unavailable : world.session.any (·.isAvailable) = false) (word : Text)
    (completion : Context → Engine (List Result)) :
    run world state (contextOf word >>= fun c => guarded c (completion c)) = (.ok [], state) := by
  change run world state (guarded (.ofWord word world.session) _) = _
  rw [guarded_unavailable (c := .ofWord word world.session) unavailable]
  rfl

/-- Without a live session a call finds nothing and leaves the state as it is. -/
theorem perform_unavailable (world : World) (state : EngineState) (call : Call)
    (unavailable : (call.session? world).any (·.isAvailable) = false) :
    (run world state call.perform).2 = state := by
  cases call with
  | input text cursor request =>
      -- The missing session is the first obstacle, so the parser is never asked.
      have stops : obstacle? world (request.session.or world.session) = some .noSession := by
        simp only [Call.session?] at unavailable
        simp [obstacle?, unavailable]
      simp only [Call.perform, completeInput, run_bind, run_read, goOn_ok, stops]
      rfl
  | ofContext c operation =>
      have nothing : operation.complete c = pure [] := by
        cases operation <;> exact guarded_unavailable unavailable _
      simp only [Call.perform, nothing, run_bind, run_pure, goOn_ok]
  | ofWord operation =>
      have nothing : run world state operation.complete = (.ok [], state) := by
        cases operation <;> exact guardedWord_unavailable state unavailable _ _
      simp only [Call.perform, run_bind, nothing, goOn_ok, run_pure]

end TabCompletion.Engine
