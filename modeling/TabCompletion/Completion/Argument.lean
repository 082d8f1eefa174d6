import TabCompletion.Binding.Location
import TabCompletion.Completion.Value

/-!
Completion of arguments: the argument at the cursor is located, its parameter found, and the values
of that parameter are offered.
-/

namespace TabCompletion.Completion

def argumentAtCursor? (c : Context) (command : Node) : Option Node :=
  match c.related.findIdx? (·.same command) with
  | none => none
  | some index =>
      match c.related[index + 1]? with
      | none => none
      | some element =>
          match element.parameterParts? with
          | some (_, argument) =>
              argument.filter fun a => (c.related[index + 2]?).any (·.same a)
          | none =>
              if !element.isExpression || command.commandElements.head?.any (·.same element) then none
              else some element

/-- The slot that the cursor is in. After a blank the node before the cursor is finished and is not
the argument being typed. -/
def argumentLocation (c : Context) (command : Node) (b : Binding) : ArgumentLocation :=
  let written := if c.tokenAt.isSome then argumentAtCursor? c command else none
  match written.bind (ArgumentLocation.byNode? b.arguments) with
  | some location => location
  | none =>
      match c.tokenBefore.or (c.tokenAt.filter (·.kind == .parameter)) with
      | some token => ArgumentLocation.byToken b.arguments token
      | none => .positional 0 none

def parameterAt? (b : Binding) (location : ArgumentLocation) : Option Parameter :=
  let declared := (b.command.map (·.parameters)).getD []
  let byWrittenName (argument : Argument) : Option Parameter :=
    (argument.parameter?.bind Node.parameterParts?).bind fun (name, _) => resolveParameter? declared name
  if !b.succeeded then location.argument?.bind byWrittenName
  else
    let positional := match location with
      | .positional index _ => b.positionalParameter? index
      | .named _ => none
    match location.argument? with
    | none => positional
    | some argument =>
        match ((b.boundName? argument).filter (!·.isEmpty)).bind (Assoc.get? b.boundParameters) with
        | some bound => some bound
        | none => if argument.parameter?.isSome then byWrittenName argument else positional

def argumentValues (c : Context) : Engine (List Result) := do
  match c.command? with
  | none => return []
  | some command =>
      match c.binding.or ((← read).binder.bind (· command)) with
      | none => defaultValues c none
      | some binding =>
          match parameterAt? binding (argumentLocation c command binding) with
          | none => defaultValues c binding.command
          | some parameter =>
              parameterValues { context := c, commandName := binding.commandName, command, parameter,
                                binding := some binding, info := binding.command }

end TabCompletion.Completion
