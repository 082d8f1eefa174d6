import TabCompletion.Cim.Cache
import TabCompletion.Completion.Context

/-!
Completion of members after a dot or a double colon. The target is evaluated when that is safe, and
then its value tells its members; otherwise its types are inferred. Of members with one name the
first found is listed.
-/

namespace TabCompletion

namespace Registry

def reachable (r : Registry) : Nat → List Text → List Text → List TypeModel
  | 0, _, _ => []
  | _, [], _ => []
  | fuel + 1, name :: pending, visited =>
      match r.getType name with
      | none => reachable r fuel pending visited
      | some model =>
          let key := Text.lower model.fullName
          if visited.contains key then reachable r fuel pending visited
          else model :: reachable r fuel (parents false model ++ pending) (key :: visited)

def enumerableInterfaces : List String :=
  ["system.collections.ienumerable", "system.collections.generic.ienumerable\x601"]

def isEnumerable (r : Registry) (typeName : Text) : Bool :=
  Text.lower typeName != Text.ofString "system.string" &&
    (r.reachable (2 * r.mentions + 5) [typeName] []).any fun model =>
      model.elementType.any (!·.isEmpty) ||
        enumerableInterfaces.any fun name => Text.ofString name == Text.lower model.fullName

/-- How far element types can lead without coming back to a registered type. -/
def elementBound (r : Registry) (typeName : Text) : Nat :=
  r.allTypes.foldr (fun model total => (model.elementType.getD []).length + 1 + total)
    (typeName.length + 2)

/-- A type, the type of its elements, and so on; absent when that never ends. -/
def elementChain? (r : Registry) : Nat → Text → Option (List Text)
  | 0, _ => none
  | fuel + 1, typeName =>
      match ((r.getType typeName).bind (·.elementType)).filter (!·.isEmpty) with
      | some element => (elementChain? r fuel element).map (typeName :: ·)
      | none => some [typeName]

end Registry

namespace Completion

structure MemberCandidate where
  name : Text
  text : Text
  isMethod : Bool
  toolTip : Text

def propertyCandidate (r : Registry) (name typeName : Text) (text : Option Text := none) : MemberCandidate :=
  { name, text := text.getD name, isMethod := false
    toolTip := r.getDisplayName typeName ++ " " ++ name ++ " \x7b get; set; \x7d" }

/-- A method; one that never takes arguments is closed at once. -/
def methodCandidate (r : Registry) (name : Text) (signatures : List Overload) : MemberCandidate :=
  let takesArguments := signatures.isEmpty || signatures.any (!·.parameters.isEmpty)
  let lines := signatures.map fun s =>
    let parameters := s.parameters.map fun p => r.getDisplayName p.typeName ++ " " ++ p.name
    r.getDisplayName s.returnType ++ " " ++ name ++ "(" ++ Text.join ", " parameters ++ ")"
  let described := Text.join "\n" lines
  { name, isMethod := true
    text := name ++ (if takesArguments then "(" else "()")
    toolTip := if described.isEmpty then name ++ "()" else described }

def collectionMethods : List MemberCandidate := [
  { name := "Where", text := "Where(", isMethod := true,
    toolTip := "Where(\x7b expression \x7d [, mode [, numberToReturn]])" },
  { name := "ForEach", text := "ForEach(", isMethod := true,
    toolTip := "ForEach(expression [, arguments...])" }]

/-! Members of described types. -/

def memberCandidate (r : Registry) (m : Member) : MemberCandidate :=
  if m.isMethodLike then methodCandidate r m.name (m.overloads.getD [])
  else propertyCandidate r m.name (m.typeName.getD "System.Object")

def declaredMembers (r : Registry) (a : Attachments) (isStatic : Bool) (typeName : Text) :
    List MemberCandidate :=
  let members := (if isStatic then [] else a.get typeName) ++ r.getMembers typeName isStatic
  (members.filter (·.isHidden != some true)).map (memberCandidate r)

def reflectedMembers (typeName : Text) (isStatic : Bool) : Engine (List MemberCandidate) := do
  let state ← get
  let r := state.registry
  if isStatic then return declaredMembers r state.attachments true typeName
  else match r.elementChain? (r.elementBound typeName) typeName with
    | some chain => return chain.flatMap (declaredMembers r state.attachments false)
    | none => throw .endlessElements

/-! Members of classes of the script. -/

inductive MemberSource where
  /-- A class of the script, and whether it is the one that was asked for. -/
  | defined (definition : Node) (isOutermost : Bool)
  | described (typeName : Text)
  | inferred (type : InferredType)

/-- The classes and types that pending types lead to, each class once and before its base types.
`unvisited` holds the numbers of the classes that were not met. -/
def memberSources (m : Inference) (root : Option Node) (unvisited : List Nat) (isOutermost : Bool)
    (pending : List InferredType) : List MemberSource :=
  match pending with
  | [] => []
  | .scriptClass definition :: rest =>
      if _isOpen : definition.id ∈ unvisited then
        let names := definition.baseTypeNames
        let others := unvisited.erase definition.id
        if names.isEmpty then
          .defined definition isOutermost
            :: .described (if definition.isEnumDefinition then "System.Enum" else "System.Object")
            :: memberSources m root others false rest
        else .defined definition isOutermost
          :: memberSources m root others false (names.map (m.resolve · root) ++ rest)
      else memberSources m root unvisited isOutermost rest
  | other :: rest => .inferred other :: memberSources m root unvisited isOutermost rest
termination_by (unvisited.length, pending.length)
decreasing_by
  all_goals first
    | (apply Prod.Lex.left
       have positive := List.length_pos_of_mem _isOpen
       rw [List.length_erase_of_mem _isOpen]
       omega)
    | (apply Prod.Lex.right; simp)

def scriptParameters (parameters : List Node) : List MethodParameter :=
  parameters.map fun p =>
    match p.form with
    | .parameter attributes name _ =>
        { typeName := (Node.constraintAmong? attributes).getD "System.Object"
          name := name.variablePath?.getD [] }
    | _ => { typeName := "System.Object", name := [] }

def classMemberCandidate (r : Registry) (m : ClassMember) : MemberCandidate :=
  if m.isMethod then
    methodCandidate r m.name [{ returnType := m.typeName.getD "System.Void",
                                parameters := scriptParameters m.parameters }]
  else propertyCandidate r m.name (m.typeName.getD "System.Object")

/-- The constructor of a class; a class that declares none has one without parameters. -/
def constructorCandidate (r : Registry) (definition : Node) : MemberCandidate :=
  let declared := (definition.classMembers.filter (·.isConstructor)).map fun m =>
    ({ returnType := definition.className, parameters := scriptParameters m.parameters } : Overload)
  let signatures := if declared.isEmpty then [{ returnType := definition.className, parameters := [] }]
    else declared
  methodCandidate r "new" signatures

/-- The members that a class of the script declares. Hidden ones are seen inside the class. -/
def classMembers (r : Registry) (c : Context) (isStatic : Bool) (definition : Node) (isOutermost : Bool) :
    List MemberCandidate :=
  let seesHidden := c.currentType.any (·.same definition)
  let shown := definition.classMembers.filter fun m =>
    !m.isConstructor && m.isStatic == isStatic && (!m.isHidden || seesHidden)
  let constructors := if isStatic && isOutermost && definition.isClassDefinition then
      [constructorCandidate r definition]
    else []
  shown.map (classMemberCandidate r) ++ constructors

/-! Members of inferred types. -/

def foreignMembers (c : Context) (isStatic : Bool) : InferredType → Engine (List MemberCandidate)
  | .reflected typeName => do
      let members ← reflectedMembers typeName isStatic
      let registry ← Engine.registry
      return members ++ if !isStatic && registry.isEnumerable typeName then collectionMethods else []
  | .cim nameSpace className => do
      let info ← Cim.classInfo c.session nameSpace className
      let registry ← Engine.registry
      let properties := ((info.map (·.properties)).getD []).map fun p =>
        propertyCandidate registry p.name p.type
      return properties ++ (← reflectedMembers Cim.instanceType isStatic)
  | .scriptClass _ => return []

def sourceMembers (c : Context) (isStatic : Bool) : MemberSource → Engine (List MemberCandidate)
  | .defined definition isOutermost => return classMembers (← Engine.registry) c isStatic definition isOutermost
  | .described typeName => reflectedMembers typeName isStatic
  | .inferred type => foreignMembers c isStatic type

def collectLists (collect : α → Engine (List β)) : List α → Engine (List β)
  | [] => return []
  | item :: rest => do
      let found ← collect item
      return found ++ (← collectLists collect rest)

def inferredMembers (c : Context) (isStatic : Bool) (type : InferredType) : Engine (List MemberCandidate) := do
  let inference ← Engine.inference c
  collectLists (sourceMembers c isStatic)
    (memberSources inference c.root? (List.range c.script.nodes.size) true [type])

/-! Members of values. -/

def valueTypeName (v : Value) : Text := v.typeNames.headD "System.Object"

def valueMembers (v : Value) (isStatic : Bool) : Engine (List MemberCandidate) := do
  let registry ← Engine.registry
  match v with
  | .type _ typeName => reflectedMembers typeName true
  | _ => do
      let keys := match v with
        | .map _ entries => entries.filterMap fun (key, entry) =>
            match key with
            | .text name => some (propertyCandidate registry name (valueTypeName entry)
                (some (if Quoting.isIdentifier name then name else Quoting.Quote.single.wrap name)))
            | _ => none
        | _ => []
      let own := v.propertyNames.map fun name =>
        propertyCandidate registry name (valueTypeName (v.property name))
      let ofTypes ← collectLists (reflectedMembers · isStatic) v.typeNames
      let ofCollection := match v with
        | .array _ _ | .map _ _ => if isStatic then [] else collectionMethods
        | _ => []
      return keys ++ own ++ ofTypes ++ ofCollection

/-! Completion. -/

def uniqueMembers (members : List MemberCandidate) : List MemberCandidate :=
  dedupeBy (fun m => Text.lower m.name) members

def arrangeMembers (members : List MemberCandidate) : List MemberCandidate :=
  sortIgnoringCase (·.name) (members.filter (!·.isMethod))
    ++ sortIgnoringCase (·.name) (members.filter (·.isMethod))

def membersOfTypes (c : Context) (isStatic : Bool) (types : List InferredType) :
    Engine (List MemberCandidate) := collectLists (inferredMembers c isStatic) types

def targetMembers (c : Context) (target : Node) (isStatic : Bool) : Engine (List MemberCandidate) := do
  let inference ← Engine.inference c
  match target.typeExpression? with
  | some typeName => inferredMembers c true (inference.resolve typeName.fullName c.root?)
  | none =>
      match Evaluation.attempt c.scope target with
      | .value v =>
          if v.isPresent then valueMembers v isStatic
          else membersOfTypes c isStatic (inference.infer target)
      | .none _ => membersOfTypes c isStatic (inference.infer target)

def members (c : Context) (target : Node) (isStatic : Bool) : Engine (List Result) := do
  let all ← targetMembers c target isStatic
  let pattern ← Engine.pattern (c.word ++ "*")
  return (arrangeMembers ((uniqueMembers all).filter fun m => pattern.test m.name)).map fun m =>
    Result.of m.text (if m.isMethod then .method else .property) m.name m.toolTip

def propertyNames (c : Context) (types : List InferredType) : Engine (List Text) := do
  let all ← membersOfTypes c false types
  return sortIgnoringCase id (((uniqueMembers all).filter (!·.isMethod)).map (·.name))

end Completion

end TabCompletion
