import TabCompletion.Completion.Context

/-!
Completion of type names inside brackets, of namespaces, and of the named arguments of attributes.
-/

namespace TabCompletion.Completion

def usedNamespaces (root : Option Node) : List Text :=
  match root.map Node.form with
  | some (.scriptBlock _ usings _) => usings.filterMap fun u =>
      match u.form with
      | .usingStatement .nameSpace (some name) => some (Text.lower (name.stringConstant?.getD []))
      | _ => none
  | _ => []

def shorten (used : List Text) (fullName : Text) : Text :=
  if used.contains (Text.lower (TypeName.namespaceOf fullName)) then TypeName.shortName fullName
  else fullName

def descriptorResult (used : List Text) (before after key : Text) (d : Descriptor) : Result :=
  let generic (fullName : Text) (arity : Int) : Result :=
    let toolTip := if 0 < arity then fullName ++ "[" ++ TypeName.placeholders arity ++ "]" else fullName
    Result.of (before ++ shorten used fullName ++ after) .type key toolTip
  match d with
  | .type fullName accelerator =>
      Result.of (before ++ accelerator.getD (shorten used fullName) ++ after) .type key fullName
  | .genericType fullName arity | .typeName fullName arity => generic fullName arity
  | .nameSpace name => Result.of (before ++ name) .nameSpace key ("Namespace " ++ name)

def lookupCatalog (word : Text) : Engine (List (Text × Descriptor)) := do
  match (← Engine.catalog).lookup word with
  | .ok found => return found
  | .error error => throw (.pattern error)

def definedTypes (word before after : Text) (root : Node) : Engine (List Result) := do
  let pattern ← Engine.pattern (word ++ "*")
  let definitions := root.preorder.filter fun n => n.kind == .typeDefinition && pattern.test n.className
  return definitions.map fun n =>
    let keyword : Text := if n.isEnumDefinition then "enum " else "class "
    Result.of (before ++ n.className ++ after) .type n.className (keyword ++ n.className)

def typeNames (c : Context) (before after : Text := []) : Engine (List Result) := do
  let used := usedNamespaces c.root?
  let listed ← lookupCatalog c.word
  let known := listed.map fun (key, d) => descriptorResult used before after key d
  let defined ← match c.root? with
    | some root => definedTypes c.word before after root
    | none => pure []
  return sortExactFirst c.word (·.listItem) (Result.dedupe (known ++ defined))

def namespaces (c : Context) : Engine (List Result) := do
  let listed ← lookupCatalog c.word
  let found := listed.filterMap fun (key, d) =>
    match d with
    | .nameSpace name => some (Result.of name .nameSpace key ("Namespace " ++ name))
    | _ => none
  return sortExactFirst c.word (·.listItem) (Result.dedupe found)

def attributeArguments (c : Context) (node : Node) : Engine (List Result) := do
  let registry ← Engine.registry
  let name := match node.form with
    | .attribute typeName _ _ => typeName.fullName
    | _ => []
  match (registry.getType name).or (registry.getType (name ++ "Attribute")) with
  | none => return []
  | some model => do
      let pattern ← Engine.pattern (c.word ++ "*")
      let members := (registry.getMembers model.fullName false).filter fun m =>
        m.isPropertyLike && m.settable != some false && m.name != Text.ofString "TypeId"
          && pattern.test m.name
      let unique := dedupeBy (fun m => Text.lower m.name) members
      return sortIgnoringCase (·.text) (unique.map fun m =>
        let typeName := match m.typeName.filter (!·.isEmpty) with
          | some t => registry.getDisplayName t
          | none => "Object"
        Result.of m.name .property m.name ("[" ++ typeName ++ "] " ++ m.name))

end TabCompletion.Completion
