import TabCompletion.Completion.Result
import TabCompletion.Value.Basic

/-!
Argument completers: functions that complete the value of one parameter.
-/

namespace TabCompletion

structure CompleterRequest where
  commandName : Text
  parameterName : Text
  word : Text
  command : Node
  /-- The values of the arguments that are already bound and could be evaluated. -/
  bound : List (Text × Value)

inductive CompleterItem where
  | value (text : Text)
  | result (result : Result)

/-- What an argument completer makes of a request. Every list is final, an empty one too. -/
inductive CompleterAnswer where
  | failed
  | declined
  | items (items : List CompleterItem)

abbrev ArgumentCompleter := CompleterRequest → CompleterAnswer

end TabCompletion
