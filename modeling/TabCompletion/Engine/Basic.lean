import TabCompletion.Binding.Basic
import TabCompletion.Cim.Basic
import TabCompletion.Failure
import TabCompletion.Paths.Provider
import TabCompletion.Session.Basic
import TabCompletion.Syntax.CommandLine
import TabCompletion.Types.Catalog

/-!
The setting of the engine: the collaborators it is given and the state it keeps between requests.
A request reads the collaborators, changes the state and gives an answer or a failure; the state
outlives a failure.
-/

namespace TabCompletion

structure World where
  session : Option Session := none
  binder : Option Binder := none
  /-- Parses a text for the offset of a cursor in it. -/
  parse : Option (Text → Nat → Parse) := none
  paths : PathProvider
  cim : Option Cim.Server := none

structure CimState where
  classNames : Assoc (List Text) := []
  associations : Assoc (List Text) := []
  classes : Assoc Cim.ClassInfo := []
  /-- How many sessions were opened. -/
  opened : Nat := 0
  /-- The numbers of the sessions that were closed. -/
  disposed : List Nat := []

structure EngineState where
  registry : Registry := Registry.bundled
  attachments : Attachments := Attachments.bundled
  /-- The catalog of the registry as it is; absent until it is asked for. -/
  catalog : Option Catalog := none
  /-- How often a catalog was made. -/
  catalogs : Nat := 0
  cim : CimState := {}
  /-- How often a session was asked whether it is stopped. -/
  polls : Nat := 0
  stopped : Bool := false
  /-- The queries made, newest last. -/
  queries : List Query := []

abbrev Engine := ReaderT World (ExceptT Failure (StateM EngineState))

namespace Engine

def run (world : World) (state : EngineState) (action : Engine α) : Except Failure α × EngineState :=
  let (answer, state) := (ExceptT.run (ReaderT.run action world)).run state
  (answer, state)

def ofExcept (answer : Except Failure α) : Engine α :=
  match answer with
  | .ok value => pure value
  | .error failure => throw failure

def pattern (source : Text) : Engine Wildcard.Pattern := ofExcept (compilePattern source)

def sessionName : Text := "ICompletionExecutionHelper"

/-- Runs a read-only query. Without a live session, or when the command fails, there are no items;
a broken contract ends the request. -/
def query (session : Option Session) (q : Query) : Engine (List Value) :=
  match session with
  | none => pure []
  | some live =>
      if !live.isAvailable then pure []
      else do
        modify fun state => { state with queries := state.queries ++ [q] }
        match live.execute q with
        | .items values => pure values
        | .failed _ => pure []
        | .broken collaborator message => throw (.contract collaborator message)
        | .notList kind =>
            throw (.contract sessionName ("'" ++ q.command ++ "' returned " ++ kind ++ " instead of an array"))

/-- Whether the session was asked to stop; each question counts. -/
def isStopped (session : Option Session) : Engine Bool :=
  match session with
  | none => pure false
  | some live => do
      let state ← get
      set { state with polls := state.polls + 1 }
      return state.stopped || live.stopsAt state.polls

/-- The catalog of type names, made anew after the registry changed. -/
def catalog : Engine Catalog := do
  let state ← get
  match state.catalog with
  | some known => return known
  | none =>
      let made := Catalog.ofRegistry state.registry
      set { state with catalog := some made, catalogs := state.catalogs + 1 }
      return made

def addType (model : TypeModel) : Engine Unit :=
  modify fun state => { state with registry := state.registry.addType model, catalog := none }

def addMembers (typeName : Text) (members : List Member) : Engine Unit :=
  modify fun state => { state with attachments := state.attachments.add typeName members }

def invalidate : Engine Unit := modify fun state => { state with catalog := none }

def stop : Engine Unit := modify fun state => { state with stopped := true }

end Engine

end TabCompletion
