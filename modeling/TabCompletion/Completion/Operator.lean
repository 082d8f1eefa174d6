import TabCompletion.Completion.Context
import TabCompletion.Language

/-!
Completion of operators and of the flags of statements, both after a dash.
-/

namespace TabCompletion.Completion

def withoutDash (word : Text) : Text := if Text.startsWith word "-" then word.drop 1 else word

def operators (word : Text) : Engine (List Result) := do
  let pattern ← Engine.pattern (withoutDash word ++ "*")
  let known := Language.operators.map fun (name, description) => (Text.ofString name, Text.ofString description)
  let found := sortIgnoringCase Prod.fst (known.filter fun entry => pattern.test entry.1)
  return found.map fun (name, description) => Result.of ("-" ++ name) .parameterName name description

def statementFlags (keyword word : Text) : Engine (List Result) := do
  let pattern ← Engine.pattern (withoutDash word ++ "*")
  return (((Language.flagsOf? keyword).getD []).filter pattern.test).map fun flag =>
    Result.of ("-" ++ flag) .parameterName flag flag

end TabCompletion.Completion
