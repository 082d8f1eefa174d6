import TabCompletion.Completion.Context
import TabCompletion.Language

/-!
Completion of command and module names. Of several commands with one name the one that would run
is listed; the others follow, qualified by their module or by their path, so that they stay within
reach.
-/

namespace TabCompletion

def CommandKind.precedence : CommandKind → Nat
  | .shortcut => 0
  | .function | .filter | .configuration => 1
  | .cmdlet => 2
  | .externalScript => 3
  | .application => 4

structure CommandEntry where
  name : Text
  kind : CommandKind
  moduleName : Option Text
  definition : Option Text

namespace CommandEntry

def nonEmpty (t : Option Text) : Option Text := t.filter (!·.isEmpty)

def ofValue? (v : Value) : Option CommandEntry :=
  match nonEmpty (v.textProperty? "Name"), (v.textProperty? "CommandType").bind CommandKind.ofText? with
  | some name, some kind =>
      some { name, kind, moduleName := nonEmpty (v.textProperty? "ModuleName"),
             definition := nonEmpty ((v.textProperty? "Definition").map Text.trim) }
  | _, _ => none

def toolTip (e : CommandEntry) : Text :=
  match e.kind, e.definition with
  | .shortcut, some definition => e.name ++ " -> " ++ definition
  | _, definition => definition.getD e.name

def displayName (e : CommandEntry) (qualified : Bool) : Text :=
  match qualified, e.moduleName with
  | true, some moduleName => moduleName ++ "\\" ++ e.name
  | _, _ => e.name

/-- What reaches a command that another one of the same name hides. -/
def detour? (e : CommandEntry) : Option Text :=
  if e.kind == .application then e.definition else e.moduleName.map fun m => m ++ "\\" ++ e.name

end CommandEntry

namespace Completion

def splitModule (word : Text) : Option Text × Text :=
  match Text.indexOf? "\\" word with
  | some (slash + 1) =>
      let moduleName := word.take (slash + 1)
      if Text.lastIndexOf? "\\" word != some (slash + 1) || Text.contains word ":" || Text.contains word "/"
          || moduleName == Text.ofString "." || moduleName == Text.ofString ".." then (none, word)
      else (some moduleName, word.drop (slash + 2))
  | _ => (none, word)

/-- A command name as it is written. A quoted name and a keyword need an ampersand to be run. -/
def formatCommandName (name : Text) (quote : Quoting.Quote) (addAmpersand : Bool) : Text :=
  match quote with
  | .none =>
      let quoted := Quoting.needed name
      let text := if quoted then Quoting.Quote.single.wrap name else name
      let isKeyword := Language.isReserved name && Text.lower name != Text.ofString "foreach"
      if addAmpersand && (quoted || isKeyword) then "& " ++ text else text
  | _ => quote.wrap name

structure CommandOptions where
  moduleName : Option Text := none
  kinds : List Text := []
  addAmpersand : Bool := true

def groupCommands (qualified : Bool) (entries : List CommandEntry) : Assoc (List CommandEntry) :=
  entries.foldl (fun groups entry =>
    let key := Text.lower (entry.displayName qualified)
    Assoc.set groups key ((Assoc.get? groups key).getD [] ++ [entry])) []

def commandResult (quote : Quoting.Quote) (addAmpersand : Bool) (text : Text) (entry : CommandEntry) : Result :=
  Result.of (formatCommandName text quote addAmpersand) .command entry.name entry.toolTip

def uniqueCommands (entries : List CommandEntry) (qualified : Bool) (quote : Quoting.Quote)
    (addAmpersand : Bool) : List Result :=
  let groups := Assoc.values (groupCommands qualified entries)
  let firsts := sortIgnoringCase (·.displayName qualified) (groups.filterMap List.head?)
  let hidden := groups.flatMap fun group => (group.drop 1).filterMap fun entry =>
    (CommandEntry.nonEmpty entry.detour?).map (commandResult quote addAmpersand · entry)
  Result.dedupe
    (firsts.map (fun entry => commandResult quote addAmpersand (entry.displayName qualified) entry) ++ hidden)

def commandQuery (name : Text) (moduleName : Option Text) (kinds : List Text) : Query :=
  let byModule : List (Text × QueryArgument) := moduleName.toList.map fun m => ("Module", .text m)
  let byKind : List (Text × QueryArgument) := if kinds.isEmpty then [] else [("CommandType", .texts kinds)]
  { command := "Get-Command", parameters := ("Name", .text (name ++ "*")) :: (byModule ++ byKind) }

def moduleQuery (name : Text) (loadedOnly : Bool) : Query :=
  let available : List (Text × QueryArgument) := if loadedOnly then [] else [("ListAvailable", .flag true)]
  { command := "Get-Module", parameters := ("Name", .text (name ++ "*")) :: available }

def commands (c : Context) (options : CommandOptions := {}) : Engine (List Result) := do
  let (quote, value) := Quoting.strip c.word
  let (wordModule, name) := match CommandEntry.nonEmpty options.moduleName with
    | some _ => (none, value)
    | none => splitModule value
  let moduleName := CommandEntry.nonEmpty (options.moduleName.or wordModule)
  let pattern ← Engine.pattern (name ++ "*")
  let values ← Engine.query c.session (commandQuery name moduleName options.kinds)
  let entries := (values.filterMap CommandEntry.ofValue?).filter fun entry => pattern.test entry.name
  let ranked := entries.mergeSort fun a b => a.kind.precedence ≤ b.kind.precedence
  return uniqueCommands ranked wordModule.isSome quote options.addAmpersand

def moduleNames (c : Context) (loadedOnly : Bool) : Engine (List Result) := do
  let (quote, value) := Quoting.strip c.word
  let pattern ← Engine.pattern (value ++ "*")
  let values ← Engine.query c.session (moduleQuery value loadedOnly)
  let named := values.filterMap fun v => (CommandEntry.nonEmpty (v.textProperty? "Name")).map (·, v)
  let modules := dedupeBy (fun entry => Text.lower entry.1) (named.filter fun entry => pattern.test entry.1)
  return (sortExactFirst value Prod.fst modules).map fun (name, v) =>
    let toolTip := match CommandEntry.nonEmpty (v.textProperty? "Description") with
      | some description => "Description: " ++ description
      | none => name
    Result.of (quoteValue name quote) .parameterValue name toolTip

end Completion

end TabCompletion
