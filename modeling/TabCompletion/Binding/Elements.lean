import TabCompletion.Syntax.Script

/-!
Reading the elements of a command where it stands: its name, its named arguments and its positional
ones.
-/

namespace TabCompletion

namespace Node

def commandElements (n : Node) : List Node :=
  match n.form with
  | .command elements _ _ => elements
  | _ => []

def commandName? (command : Node) : Option Text := command.commandElements.head?.bind stringConstant?

def literalText? (n : Node) : Option Text :=
  match n.form with
  | .stringConstant value _ => some value
  | .expandableString value _ [] => some value
  | _ => none

def parameterParts? (n : Node) : Option (Text × Option Node) :=
  match n.form with
  | .commandParameter name argument => some (name, argument)
  | _ => none

def isParameter (n : Node) : Bool := n.kind == .commandParameter

end Node

namespace Command

def stripModule (name : Text) : Text :=
  match Text.lastIndexOf? "\\" name with
  | some slash => name.drop (slash + 1)
  | none => name

/-- The argument of the first parameter whose name starts `lowered`: the attached argument or the
expression that follows. -/
def namedIn (lowered : Text) : List Node → Option Node
  | [] => none
  | element :: rest =>
      match element.parameterParts? with
      | some (name, argument) =>
          let written := Text.lower name
          if written.isEmpty || !Text.startsWith lowered written then namedIn lowered rest
          else argument.or (rest.head?.filter (·.isExpression))
      | none => namedIn lowered rest

def namedArgument? (command : Node) (name : Text) : Option Node :=
  namedIn (Text.lower name) (command.commandElements.drop 1)

/-- The elements that no parameter takes. A parameter without an attached argument takes the
expression that follows. -/
def positionalIn : List Node → List Node
  | [] => []
  | [last] => if last.isParameter then [] else [last]
  | element :: next :: rest =>
      match element.parameterParts? with
      | some (_, argument) =>
          if argument.isNone && next.isExpression then positionalIn rest else positionalIn (next :: rest)
      | none => element :: positionalIn (next :: rest)

def positionalArguments (command : Node) : List Node := positionalIn (command.commandElements.drop 1)

end Command

end TabCompletion
