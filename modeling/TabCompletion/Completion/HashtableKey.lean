import TabCompletion.Binding.Elements
import TabCompletion.Completion.Context

/-!
Completion of the keys of hashtable literals: the settable properties of the type that the literal
is converted to or that `New-Object` makes, and the keys of calculated properties.
-/

namespace TabCompletion.Completion

def calculatedKeys : List (String × List String) := [
  ("select-object", ["Name", "Expression"]),
  ("sort-object", ["Expression", "Ascending", "Descending"]),
  ("group-object", ["Expression"]),
  ("format-table", ["Expression", "FormatString", "Label", "Width", "Alignment"]),
  ("format-list", ["Expression", "FormatString", "Label"]),
  ("format-wide", ["Expression", "FormatString"]),
  ("format-custom", ["Expression", "Depth"]),
  ("measure-object", ["Expression"])]

structure KeyCandidate where
  name : Text
  toolTip : Text

/-! Settable properties. -/

abbrev NamedType := Text × Text

def settableMembers (r : Registry) (typeName : Text) : List NamedType :=
  ((r.getMembers typeName false).filter fun m =>
    m.isPropertyLike && m.kind != .event && m.settable != some false && m.isHidden != some true).map
    fun m => (m.name, m.typeName.getD "System.Object")

def shownProperties (definition : Node) : List NamedType :=
  (definition.classMembers.filter fun m => !m.isMethod && !m.isStatic && !m.isHidden).map
    fun m => (m.name, m.typeName.getD "System.Object")

/-- The settable properties of the pending types and of what classes of the script are based on.
`unvisited` holds the numbers of the classes that were not met. -/
def settableProperties (m : Inference) (unvisited : List Nat) (pending : List InferredType) :
    List NamedType :=
  match pending with
  | [] => []
  | .reflected typeName :: rest => settableMembers m.registry typeName ++ settableProperties m unvisited rest
  | .cim _ _ :: rest => settableProperties m unvisited rest
  | .scriptClass definition :: rest =>
      if _isOpen : definition.id ∈ unvisited then
        let bases := definition.baseTypeNames.map (m.resolveAt · definition)
        shownProperties definition
          ++ settableProperties m (unvisited.erase definition.id) (bases ++ rest)
      else settableProperties m unvisited rest
termination_by (unvisited.length, pending.length)
decreasing_by
  all_goals first
    | (apply Prod.Lex.left
       have positive := List.length_pos_of_mem _isOpen
       rw [List.length_erase_of_mem _isOpen]
       omega)
    | (apply Prod.Lex.right; simp)

def typeKeys (m : Inference) (type : InferredType) : List KeyCandidate :=
  let found := settableProperties m (List.range m.script.nodes.size) [type]
  (sortIgnoringCase Prod.fst (dedupeBy (fun p => Text.lower p.1) found)).map fun (name, typeName) =>
    { name, toolTip := "[" ++ m.registry.getDisplayName typeName ++ "] " ++ name }

/-! Where a hashtable stands. -/

structure CommandSlot where
  command : Node
  parameterName : Option Text

def slotOf? (s : Script) (element : Node) : Option CommandSlot :=
  match s.parent? element with
  | none => none
  | some parent =>
      match parent.form with
      | .commandParameter name _ =>
          ((s.parent? parent).filter (·.kind == .command)).map fun command =>
            { command, parameterName := some name }
      | .command elements _ _ =>
          let index := (elements.findIdx? (·.same element)).getD 0
          let previous := if 1 < index then elements[index - 1]? else none
          let parameterName := match previous.bind Node.parameterParts? with
            | some (name, none) => some name
            | _ => none
          some { command := parent, parameterName }
      | _ => none

def commandSlot? (s : Script) (hashtable : Node) : Option CommandSlot :=
  match (s.parent? hashtable).filter (·.kind == .arrayLiteral) with
  | some list => slotOf? s list
  | none => slotOf? s hashtable

/-- Whether a parameter takes properties: a positional one may, and a name that starts
`Property`. -/
def takesProperties : Option Text → Bool
  | none => true
  | some name => !name.isEmpty && Text.startsWith "property" (Text.lower name)

def slotKeys (m : Inference) (root : Option Node) (slot : CommandSlot) : List KeyCandidate :=
  match slot.command.commandName?.filter (!·.isEmpty) with
  | none => []
  | some written =>
      if !takesProperties slot.parameterName then []
      else
        let name := Text.lower (Command.stripModule written)
        if name == Text.ofString "new-object" then
          match slot.parameterName, Inference.literal? (Inference.namedOrFirst slot.command "TypeName") with
          | some _, some typeName => typeKeys m (m.resolve typeName root)
          | _, _ => []
        else
          let keys := (calculatedKeys.find? fun entry => Text.ofString entry.1 == name).map (·.2)
          (keys.getD []).map fun (key : String) => { name := key, toolTip := key }

def keyCandidates (m : Inference) (root : Option Node) (hashtable : Node) : List KeyCandidate :=
  let converted := ((m.script.parent? hashtable).bind Node.conversion?).filter (·.2.same hashtable)
  match converted with
  | some (typeName, _) => typeKeys m (m.resolve typeName root)
  | none => ((commandSlot? m.script hashtable).map (slotKeys m root)).getD []

def writtenKeys (hashtable : Node) (cursor : Int) : List Text :=
  match hashtable.form with
  | .hashtable pairs => pairs.filterMap fun (key, _) =>
      if key.extent.touches cursor then none else key.stringConstant?.map Text.lower
  | _ => []

def hashtableKeys (c : Context) (hashtable : Node) : Engine (List Result) := do
  let inference ← Engine.inference c
  let candidates := keyCandidates inference c.root? hashtable
  if candidates.isEmpty then return []
  else do
    let pattern ← Engine.pattern (c.word ++ "*")
    let written := writtenKeys hashtable c.cursor
    let fresh := candidates.filter fun k => !written.contains (Text.lower k.name) && pattern.test k.name
    return fresh.map fun k => Result.of k.name .property k.name k.toolTip

end TabCompletion.Completion
