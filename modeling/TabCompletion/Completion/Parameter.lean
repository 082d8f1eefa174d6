import TabCompletion.Completion.Context
import TabCompletion.Language

/-!
Completion of parameter names after a dash.
-/

namespace TabCompletion.Completion

/-- The parameters that may still be written: those that are unbound, and the one that the word
itself is bound to. Without a successful binding, all of them. -/
def openParameters (b : Binding) (cursor : Int) : List Parameter :=
  if b.succeeded then
    b.boundArguments.foldl (fun found (name, argument) =>
      if argument.parameter?.any (·.extent.touches cursor) then
        match Assoc.get? b.boundParameters name with
        | some bound => if found.any (·.name == bound.name) then found else found ++ [bound]
        | none => found
      else found) b.unbound
  else (b.command.map (·.parameters)).getD []

structure ParameterMatch where
  parameter : Parameter
  name : Text

def ParameterMatch.isCommon (m : ParameterMatch) : Bool :=
  m.parameter.isCommon.getD (Language.isCommonParameter m.parameter.name)

def ParameterMatch.of? (pattern : Wildcard.Pattern) (p : Parameter) : Option ParameterMatch :=
  let found := if pattern.test p.name then some p.name else p.aliases.find? pattern.test
  (found.filter (!·.isEmpty)).map fun name => { parameter := p, name }

/-- The exact name first, then the parameters of the command and the common ones, by name. -/
def arrangeParameters (word : Text) (found : List ParameterMatch) : List ParameterMatch :=
  let lowered := Text.lower word
  let isExact := fun (m : ParameterMatch) => Text.lower m.name == lowered
  let rest := found.filter fun m => !isExact m
  found.filter isExact ++ sortIgnoringCase (·.name) (rest.filter (!·.isCommon))
    ++ sortIgnoringCase (·.name) (rest.filter (·.isCommon))

def parameterToolTip (r : Registry) (p : Parameter) : Text :=
  let typeName := r.getDisplayName p.typeName
  let suffix := if p.isArray && !Text.endsWith typeName "[]" then "[]" else ""
  "[" ++ typeName ++ suffix ++ "] " ++ p.name

def parameterNames (c : Context) : Engine (List Result) := do
  match c.command? with
  | none => return []
  | some command =>
      let binding := c.binding.or ((← read).binder.bind (· command))
      match binding.filter (·.command.isSome) with
      | none => return []
      | some bound => do
          let word := if Text.startsWith c.word "-" then c.word.drop 1 else c.word
          let pattern ← Engine.pattern (word ++ "*")
          let found := (openParameters bound c.cursor).filterMap (ParameterMatch.of? pattern)
          let registry ← Engine.registry
          return (arrangeParameters word found).map fun m =>
            Result.of ("-" ++ m.name) .parameterName m.name (parameterToolTip registry m.parameter)

end TabCompletion.Completion
