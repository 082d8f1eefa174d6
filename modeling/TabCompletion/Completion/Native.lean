import TabCompletion.Completion.Command
import TabCompletion.Completion.Member
import TabCompletion.Completion.NativeTable
import TabCompletion.Completion.Path

/-!
Values for the parameters of well-known commands, by the strategies of the table.
-/

namespace TabCompletion.Completion

structure ValueRequest where
  context : Context
  commandName : Text
  command : Node
  parameter : Parameter
  binding : Option Binding := none
  info : Option CommandInfo := none

namespace ValueRequest

def completeFrom (r : ValueRequest) (values : List Text) : Engine (List Result) :=
  Engine.ofExcept (completeValues (values.map fun value => { value }) r.context.word)

end ValueRequest

def sessionValues (r : ValueRequest) (query valueProperty : Text) (toolTipProperty : Option Text)
    (numeric : Bool) : Engine (List Result) := do
  let items ← Engine.query r.context.session { command := query }
  let candidates := items.filterMap fun item =>
    ((item.textProperty? valueProperty).filter (!·.isEmpty)).map fun value =>
      let explained := (toolTipProperty.filter (!·.isEmpty)).bind item.textProperty?
      ({ value, toolTip := some ((explained.filter (!·.isEmpty)).getD value) } : Candidate)
  Engine.ofExcept (completeValues candidates r.context.word (if numeric then .numeric else .exactFirst))

def previousElement? (s : Script) (command : Node) : Option Node :=
  match (s.parent? command).map Node.form with
  | some (.pipeline elements) =>
      match elements.findIdx? (·.same command) with
      | some (index + 1) => elements[index]?
      | _ => none
  | _ => none

def inputClasses (r : ValueRequest) : Engine (List (Text × Text)) := do
  match Inference.namedOrFirst r.command "InputObject" with
  | none => return []
  | some input => do
      let inference ← Engine.inference r.context
      return (inference.infer input).filterMap fun type =>
        match type with
        | .cim nameSpace className => some (nameSpace, className)
        | _ => none

def slashed (t : Text) : Text := t.map fun (u : CodeUnit) => if u == '\\' then '/' else u

/-- Namespaces below what is typed; `root` itself where nothing is typed before it. -/
def cimNamespaces (r : ValueRequest) : Engine (List Result) := do
  let word := slashed (Quoting.strip r.context.word).2
  let (own, parent) : List Text × Text := match Text.lastIndexOf? "/" word with
    | some slash => ([], word.take slash)
    | none => (["root"], "root")
  let children ← Cim.childNamespaces r.context.session parent
  Engine.ofExcept
    (completeValues ((own ++ children).map fun value => { value }) (slashed r.context.word))

def cimMethods (r : ValueRequest) (isStatic : Bool) (nameSpace className : Text) : Engine (List Candidate) := do
  let info ← Cim.classInfo r.context.session nameSpace className
  let methods := ((info.map (·.methods)).getD []).filter (·.isStatic == isStatic)
  return methods.map fun m =>
    let parameters := m.parameters.map fun p => p.type ++ " " ++ p.name
    { value := m.name
      toolTip := some (m.returnType.getD "void" ++ " " ++ m.name ++ "(" ++ Text.join ", " parameters ++ ")") }

/-- Methods of the named class, which are static, or of the classes of the input. -/
def cimMethodNames (r : ValueRequest) : Engine (List Result) := do
  let candidates ← match Inference.literal? (Command.namedArgument? r.command "ClassName") with
    | some className => cimMethods r true (Inference.cimNamespaceOf r.command) className
    | none => do
        let classes ← inputClasses r
        collectLists (fun (nameSpace, className) => cimMethods r false nameSpace className) classes
  Engine.ofExcept (completeValues candidates r.context.word)

def cimResultClassNames (r : ValueRequest) : Engine (List Result) := do
  let classes ← inputClasses r
  let names ← collectLists (fun (nameSpace, className) =>
    Cim.associatedNames r.context.session nameSpace className) classes
  r.completeFrom names

/-- Property names of what the pipeline hands over; absent when nothing does. -/
def pipelineMembers? (r : ValueRequest) : Engine (Option (List Result)) := do
  match previousElement? r.context.script r.command with
  | none => return none
  | some previous => do
      let inference ← Engine.inference r.context
      let names ← propertyNames r.context (inference.infer previous)
      return some (← r.completeFrom names)

def runStrategy (r : ValueRequest) : NativeStrategy → Engine (Option (List Result))
  | .sessionQuery query valueProperty toolTipProperty numeric =>
      return some (← sessionValues r query valueProperty toolTipProperty numeric)
  | .module loadedOnly => return some (← moduleNames r.context loadedOnly)
  | .command => return some (← commands r.context { addAmpersand := false })
  | .location literal => do
      let places : PathFilter := { containerOnly := true }
      return some (← if literal then literalFileNames r.context places else fileNames r.context places)
  | .fixedValues values => return some (← r.completeFrom values)
  | .pipelineMembers => pipelineMembers? r
  | .cimNamespace => return some (← cimNamespaces r)
  | .cimClassName => do
      let names ← Cim.classNames r.context.session (Inference.cimNamespaceOf r.command)
      return some (← r.completeFrom names)
  | .cimMethodName => return some (← cimMethodNames r)
  | .cimResultClassName => return some (← cimResultClassNames r)

def runStrategy? (r : ValueRequest) : Option NativeStrategy → Engine (Option (List Result))
  | some strategy => runStrategy r strategy
  | none => return none

def nativeValues? (r : ValueRequest) : Engine (Option (List Result)) :=
  runStrategy? r (Assoc.get? NativeTable.bundled
    (NativeTable.key (Command.stripModule r.commandName) r.parameter.name))

end TabCompletion.Completion
