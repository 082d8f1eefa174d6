import TabCompletion.Completion.Analysis

/-!
The operations of the engine. Nothing is offered without a live session.
-/

namespace TabCompletion.Engine

open Completion

structure InputCompletion where
  results : List Result
  index : Int
  length : Int

def guarded (c : Context) (completion : Engine (List Result)) : Engine (List Result) :=
  if c.hasSession then completion else pure []

def contextOf (word : Text) : Engine Context := return .ofWord word (← read).session

def clampCursor (input : Text) (cursor : Int) : Nat := (min cursor input.length).toNat

inductive Obstacle where
  | noSession
  | noParser
  deriving DecidableEq

/-- The first obstacle: a live session is asked for before a parser. -/
def obstacle? (world : World) (session : Option Session) : Option Obstacle :=
  if !session.any (·.isAvailable) then some .noSession
  else if world.parse.isNone then some .noParser
  else none

/-- Parses an input and completes what the cursor asks for. The session of the request comes before
that of the engine. -/
def completeInput (input : Text) (cursor : Int) (request : RequestOptions := {}) : Engine InputCompletion := do
  let world ← read
  let place := clampCursor input cursor
  let session := request.session.or world.session
  let nothing : InputCompletion := { results := [], index := place, length := 0 }
  match obstacle? world session, world.parse with
  | none, some parse => do
      let parsed := parse input place
      let start := Cursor.context (Script.ofTree input parsed.tree) parsed.tokens place
        { request with session }
      let (results, final) ← Analysis.results start
      if results.isEmpty then return nothing
      else return { results, index := final.replacementIndex, length := final.replacementLength }
  | _, _ => return nothing

def completeCommand (c : Context) : Engine (List Result) := guarded c (commands c)

def completeCommandName (name : Text) (moduleName : Option Text) (kinds : List Text) : Engine (List Result) := do
  let c ← contextOf name
  guarded c (commands c { moduleName, kinds, addAmpersand := false })

def completeModuleName (c : Context) (loadedOnly : Bool) : Engine (List Result) :=
  guarded c (moduleNames c loadedOnly)

def completeCommandParameter (c : Context) : Engine (List Result) := guarded c (parameterNames c)

def completeCommandArgument (c : Context) : Engine (List Result) := guarded c (argumentValues c)

def completeMember (c : Context) (isStatic : Bool) : Engine (List Result) :=
  guarded c (match Cursor.memberTarget? c with
    | some target => members c target isStatic
    | none => pure [])

def completeVariable (c : Context) : Engine (List Result) := guarded c (variableNames c)

def completeVariableName (name : Text) : Engine (List Result) := do
  let word := if Text.startsWith name "$" || Text.startsWith name "@" then name else "$" ++ name
  completeVariable (← contextOf word)

def completeFilename (c : Context) (wanted : PathFilter := {}) : Engine (List Result) :=
  guarded c (fileNames c wanted)

def completeFilenameText (name : Text) : Engine (List Result) := do completeFilename (← contextOf name)

def completeType (c : Context) (before after : Text := []) : Engine (List Result) :=
  guarded c (typeNames c before after)

def completeTypeName (name : Text) : Engine (List Result) := do completeType (← contextOf name)

def completeNamespace (c : Context) : Engine (List Result) := guarded c (namespaces c)

def completeHashtableKey (c : Context) (hashtable : Node) : Engine (List Result) :=
  guarded c (hashtableKeys c hashtable)

def completeHistory (c : Context) : Engine (List Result) := guarded c (history c)

def completeOperator (word : Text) : Engine (List Result) := do
  guarded (← contextOf word) (operators word)

def completeStatementFlags (keyword word : Text) : Engine (List Result) := do
  guarded (← contextOf word) (statementFlags keyword word)

end TabCompletion.Engine
