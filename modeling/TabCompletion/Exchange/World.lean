import TabCompletion.Binding.Table
import TabCompletion.Engine.Basic
import TabCompletion.Exchange.Model
import TabCompletion.Exchange.Value
import TabCompletion.Json.Writer
import TabCompletion.Paths.Memory

/-!
Collaborators of the engine in JSON: a session over tables, declared commands, completers, paths
and a management server.
-/

namespace TabCompletion.Exchange

/-! Completers. -/

def echo (r : CompleterRequest) : List Text :=
  Text.join "|" [r.commandName, r.parameterName, r.word, r.command.text]
    :: r.bound.map fun (name, value) => name ++ "=" ++ Json.write (ofValue value)

def completerOf (j : Json) : ArgumentCompleter := fun request =>
  if (j.field? "throw").isSome then .failed
  else if (j.field? "decline").isSome then .declined
  else match (j.get "returns").items? with
    | some items => .items (items.map fun item =>
        match item with
        | .text t => .value t
        | other => .result (resultOf other))
    | none => .items ((echo request).map .value)

def completersOf (j : Json) : Assoc ArgumentCompleter :=
  j.fields.map fun (name, completer) => (name, completerOf completer)

/-! Commands. -/

def parameterSetOf (j : Json) : ParameterSet :=
  { name := textOf j "setName", position := (j.get "position").int?,
    takesRemaining := flagOf j "valueFromRemainingArguments" }

def parameterOf (j : Json) : Parameter :=
  { name := textOf j "name"
    typeName := (textOf? j "type").getD "System.String"
    isArray := flagOf j "isArray"
    aliases := textsOf (j.get "aliases")
    sets := match (j.get "sets").items? with
      | some sets => sets.map parameterSetOf
      | none => [{ name := allParameterSets, position := (j.get "position").int? }]
    validValues := (j.get "validateSet").items?.map fun _ => textsOf (j.get "validateSet")
    completer := match j.get "completer" with
      | .object fields => some (completerOf (.object fields))
      | _ => none
    isCommon := (j.get "isCommon").bool? }

def commandOf (j : Json) : CommandInfo :=
  { name := textOf j "name"
    kind := (CommandKind.ofText? ((textOf? j "commandType").getD "Cmdlet")).getD .cmdlet
    parameters := (j.get "parameters").items.map parameterOf
    outputTypes := textsOf (j.get "outputTypes")
    defaultSet := textOf? j "defaultParameterSet" }

def overridesOf (j : Json) : BindingOverrides :=
  { succeeded := (textOf? j "infoType").map (· == Text.ofString "BindingSucceed")
    validSets := (j.get "validParameterSets").items?.map fun _ => textsOf (j.get "validParameterSets")
    defaultSet := (j.field? "defaultParameterSet").map Json.text?
    hidesCommand := flagOf j "noCommandInfo" }

def binderOf (world : Json) : Option Binder :=
  (world.get "commands").items?.map fun commands =>
    CommandTable.toBinder { commands := commands.map commandOf, overrides := overridesOf (world.get "binding") }

/-! Sessions. -/

def kindOf : Value → Text
  | .undefined => "undefined"
  | .bool _ => "boolean"
  | .number _ => "number"
  | .text _ => "string"
  | _ => "object"

def answerOf (j : Json) : StateM Nat TabledAnswer := do
  match j.field? "throw", j.field? "contract", j.field? "raw" with
  | some message, _, _ => return .failed (message.text?.getD [])
  | _, some message, _ => return .broken (message.text?.getD [])
  | _, _, some raw =>
      match ← valueOf raw with
      | .array _ items => return .items items none
      | other => return .notList (kindOf other)
  | _, _, _ => do
      let items ← (j.get "items").items.mapM valueOf
      return .items items (textOf? j "where")

def sessionOf (j : Json) : StateM Nat Session := do
  let commands ← (j.get "commands").fields.mapM fun (name, spec) => do
    let answer ← answerOf spec
    return (name, answer)
  let variableTable ← (j.get "variables").fields.mapM fun (name, value) => do
    let value ← valueOf value
    return (name, value)
  return SessionTable.toSession
    { isAvailable := (j.get "available").bool?.getD true, commands, variableTable,
      stopAfter := (j.get "stopAfter").nat? }

/-! Paths, parsers and management servers. -/

def pathsOf (j : Json) : PathProvider :=
  MemoryPaths.provider (textsOf (j.get "entries")) ((textOf? j "cwd").getD "/work")
    ((textOf? j "home").getD "/home/user")
    ((j.get "shares").fields.map fun (server, names) => (server, textsOf names))

/-- The parse of a text, wherever the cursor is: the first one that is listed for it, else that of a
command line. -/
def parserOf (world : Json) : Option (Text → Nat → Parse) :=
  if (world.get "parser").bool? == some false then none
  else
    let listed := (world.get "parses").items.map fun entry => (textOf entry "text", entry)
    some fun source _ =>
      match listed.lookup source with
      | some entry =>
          { tree := treeOf source (entry.get "ast"), tokens := tokensOf source (entry.get "tokens") }
      | none => CommandLine.parse source

def cimPropertyOf (j : Json) : Cim.Property := { name := textOf j "name", type := textOf j "cimType" }

def cimClassOf (j : Json) : Cim.ClassInfo :=
  { nameSpace := textOf j "namespace", className := textOf j "className"
    properties := (j.get "properties").items.map cimPropertyOf
    methods := (j.get "methods").items.map fun m =>
      { name := textOf m "name", isStatic := flagOf m "isStatic", returnType := textOf? m "returnType"
        parameters := (m.get "parameters").items.map cimPropertyOf } }

def cimCallOf? (name : Text) : Option Cim.Call :=
  let calls : List (String × Cim.Call) := [("createSession", .createSession), ("getClass", .getClass),
    ("enumerateClasses", .enumerateClasses), ("enumerateInstances", .enumerateInstances),
    ("queryAssociators", .queryAssociators)]
  (calls.find? fun entry => Text.ofString entry.1 == name).map (·.2)

/-- The names in a list. An entry that is none is met like the others, and then the listing fails. -/
def listedNamesOf (entries : List Json) : Cim.Enumeration Text :=
  let readable := entries.takeWhile fun entry => entry.text?.isSome
  let names := readable.filterMap Json.text?
  if readable.length = entries.length then { items := names }
  else { items := names ++ [[]], fails := true }

def cimOf (j : Json) : Cim.Server :=
  Cim.Table.toServer
    { classes := (j.get "classes").items.map cimClassOf
      namespaces := (j.get "namespaces").fields.map fun (name, names) => (name, names.items.map Json.text?)
      associators := (j.get "associators").fields.map fun (name, names) => (name, listedNamesOf names.items)
      failsOn := (textOf? j "failOn").bind cimCallOf?
      failsOnDispose := flagOf j "failOnDispose" }

def optional (decode : Json → α) (j : Json) : Option α :=
  match j with
  | .object fields => some (decode (.object fields))
  | _ => none

def worldOf (j : Json) : World :=
  { session := optional (fun s => ((sessionOf s).run 0).1) (j.get "session")
    binder := binderOf j
    parse := parserOf j
    paths := pathsOf (j.get "paths")
    cim := optional cimOf (j.get "cim") }

/-! Queries. -/

def ofArgument : QueryArgument → Json
  | .text t => .text t
  | .number n => .number n
  | .flag b => .bool b
  | .texts values => .ofTexts values

def ofQuery (q : Query) : Json :=
  .array [.text q.command, .object (q.parameters.map fun (name, argument) => (name, ofArgument argument))]

end TabCompletion.Exchange
