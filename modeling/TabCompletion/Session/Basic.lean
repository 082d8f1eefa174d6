import TabCompletion.Assoc
import TabCompletion.Value.Basic

/-!
A live session: it answers read-only queries, gives the values of variables, and says when it is
asked to stop.
-/

namespace TabCompletion

inductive QueryArgument where
  | text (value : Text)
  | number (value : Number)
  | flag (value : Bool)
  | texts (values : List Text)

structure Query where
  command : Text
  parameters : List (Text × QueryArgument) := []

inductive QueryAnswer where
  | items (values : List Value)
  /-- The answer is no list; `kind` names what it is. -/
  | notList (kind : Text)
  /-- The command failed. -/
  | failed (message : Text)
  /-- The session broke its contract. -/
  | broken (collaborator message : Text)

structure Session where
  isAvailable : Bool := true
  execute : Query → QueryAnswer
  readVariable : Text → Value
  /-- Whether the session is stopped at a poll; polls count from zero. -/
  stopsAt : Nat → Bool := fun _ => false

def Session.scope? (session : Option Session) : Option (Text → Value) :=
  match session with
  | some live => if live.isAvailable then some live.readVariable else none
  | none => none

/-! Sessions that answer from a table. -/

inductive TabledAnswer where
  /-- Values, of which a parameter may select those with an equal property. -/
  | items (values : List Value) (selector : Option Text)
  | notList (kind : Text)
  | failed (message : Text)
  | broken (message : Text)

def QueryArgument.is (argument : QueryArgument) (value : Value) : Bool :=
  match argument with
  | .text t => value.identical (.text t)
  | .number n => value.identical (.number n)
  | .flag b => value.identical (.bool b)
  | .texts _ => false

def TabledAnswer.toQuery (answer : TabledAnswer) (query : Query) : QueryAnswer :=
  match answer with
  | .items values none => .items values
  | .items values (some property) =>
      match query.parameters.lookup property with
      | some argument => .items (values.filter fun value => argument.is (value.property property))
      | none => .items values
  | .notList kind => .notList kind
  | .failed message => .failed message
  | .broken message => .broken "host" message

structure SessionTable where
  isAvailable : Bool := true
  commands : Assoc TabledAnswer
  variableTable : Assoc Value
  stopAfter : Option Nat := none

/-- The table with lower-case names; of names that differ in case only the last one counts. -/
def lowerKeys (table : Assoc α) : Assoc α :=
  Assoc.ofList (table.map fun (name, value) => (Text.lower name, value))

def SessionTable.toSession (t : SessionTable) : Session :=
  let commands := lowerKeys t.commands
  let variableTable := lowerKeys t.variableTable
  { isAvailable := t.isAvailable
    execute := fun query =>
      match Assoc.get? commands (Text.lower query.command) with
      | some answer => answer.toQuery query
      | none => .failed ("The term '" ++ query.command ++ "' is not recognized")
    readVariable := fun name => (Assoc.get? variableTable (Text.lower name)).getD .undefined
    stopsAt := fun poll =>
      match t.stopAfter with
      | some limit => limit ≤ poll
      | none => false }

end TabCompletion
