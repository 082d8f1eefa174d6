import TabCompletion.Completion.Native

/-!
Values of a parameter. The strategies are tried in a fixed order; the first that applies is final,
even when it finds nothing. Where none applies, paths and commands are offered.
-/

namespace TabCompletion.Completion

/-- Paths and, when the word holds a dash, commands. An application takes paths literally. -/
def defaultValues (c : Context) (info : Option CommandInfo) : Engine (List Result) := do
  let paths ← if info.any (·.kind == .application) then literalFileNames c else fileNames c
  if Text.contains (Quoting.strip c.word).2 "-" then
    return paths ++ (← commands c { addAmpersand := false })
  else return paths

/-! Completers that were registered. -/

/-- The completers of a parameter: its own, that of the command's parameter, that of the name. -/
def registeredCompleters (r : ValueRequest) : List ArgumentCompleter :=
  let name := r.parameter.name
  [r.parameter.completer,
    Assoc.get? r.context.completers (Text.lower (Command.stripModule r.commandName ++ ":" ++ name)),
    Assoc.get? r.context.completers (Text.lower name)].filterMap id

def boundValues (r : ValueRequest) : List (Text × Value) :=
  ((r.binding.map (·.boundArguments)).getD []).filterMap fun (name, argument) =>
    match argument.form with
    | .switch _ value => some (name, .bool value)
    | .value _ _ (some node) =>
        match Evaluation.attempt r.context.scope node with
        | .value v => some (name, v)
        | .none _ => none
    | _ => none

def CompleterItem.toResult (quote : Quoting.Quote) : CompleterItem → Result
  | .value text => Result.of (quoteValue text quote) .parameterValue text text
  | .result result => result

/-- The answer of the first completer that neither fails nor declines. -/
def firstAnswer? (request : CompleterRequest) : List ArgumentCompleter → Option (List CompleterItem)
  | [] => none
  | completer :: rest =>
      match completer request with
      | .items items => some items
      | .failed | .declined => firstAnswer? request rest

def registeredValues? (r : ValueRequest) : Option (List Result) :=
  let request : CompleterRequest :=
    { commandName := Command.stripModule r.commandName, parameterName := r.parameter.name
      word := r.context.word, command := r.command, bound := boundValues r }
  let quote := (Quoting.strip r.context.word).1
  (firstAnswer? request (registeredCompleters r)).map fun items => items.map (CompleterItem.toResult quote)

/-! Values that the type of the parameter gives. -/

def enumValues? (r : ValueRequest) : Engine (Option (List Result)) := do
  let registry ← Engine.registry
  match registry.getEnumValues (TypeName.parse r.parameter.typeName).baseName with
  | some values => return some (← r.completeFrom values)
  | none => return none

def isTruthType (fullName : Text) : Bool :=
  let lowered := Text.lower fullName
  lowered == Text.ofString "system.management.automation.switchparameter"
    || lowered == Text.ofString "system.boolean"

def truthValues? (r : ValueRequest) : Engine (Option (List Result)) := do
  let registry ← Engine.registry
  let typeName := r.parameter.typeName
  if !isTruthType ((registry.resolveFullName typeName).getD typeName) then return none
  else do
    let word := (Quoting.strip r.context.word).2
    if !word.isEmpty && !Text.startsWith word "$" then return some []
    else do
      let pattern ← Engine.pattern (word ++ "*")
      let truths : List Text := ["$true", "$false"]
      return some ((truths.filter pattern.test).map fun value => Result.of value .parameterValue value value)

def listedValues? (r : ValueRequest) : Engine (Option (List Result)) := do
  match r.parameter.validValues with
  | some (value :: rest) => return some (← r.completeFrom (value :: rest))
  | _ => return none

def firstApplying : List (Engine (Option (List Result))) → Engine (Option (List Result))
  | [] => return none
  | strategy :: rest => do
      match ← strategy with
      | some results => return some results
      | none => firstApplying rest

def parameterValues (r : ValueRequest) : Engine (List Result) := do
  match ← firstApplying
      [pure (registeredValues? r), enumValues? r, truthValues? r, listedValues? r, nativeValues? r] with
  | some results => return results
  | none => defaultValues r.context r.info

end TabCompletion.Completion
