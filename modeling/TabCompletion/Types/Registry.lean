import TabCompletion.Types.Bundled
import TabCompletion.Types.Name

/-!
The registry of types whose members are known. A name resolves directly, through an accelerator or
with the namespace `System.` left out; array types are made on lookup and generic types resolve
by their arity.
-/

namespace TabCompletion

structure Registry where
  types : Assoc TypeModel
  accelerators : List (Text × Text)
  acceleratorTargets : Assoc Text
  displayNames : Assoc Text
  knownTypeNames : List Text

namespace Registry

/-- The shortest alias of each accelerated type; of two equally short ones the first. -/
def shortestAliases (accelerators : List (Text × Text)) : Assoc Text :=
  accelerators.foldl (fun table (shortForm, fullName) =>
    let key := Text.lower fullName
    match Assoc.get? table key with
    | some current => if shortForm.length < current.length then Assoc.set table key shortForm else table
    | none => Assoc.set table key shortForm) []

def build (types : List TypeModel) (accelerators : List (Text × Text)) (names : List Text) : Registry :=
  { types := Assoc.ofList (types.map fun model => (Text.lower model.fullName, model))
    accelerators
    acceleratorTargets :=
      Assoc.ofList (accelerators.map fun (shortForm, fullName) => (Text.lower shortForm, fullName))
    displayNames := shortestAliases accelerators
    knownTypeNames := names }

def bundled : Registry := build Bundled.knownTypes Bundled.accelerators Bundled.typeNames

/-- A registered type by its full name, by an accelerator or without `System.`. -/
def lookup (r : Registry) (name : Text) : Option TypeModel :=
  let lowered := Text.lower name
  match Assoc.get? r.types lowered with
  | some model => some model
  | none =>
      match Assoc.get? r.acceleratorTargets lowered with
      | some target => if target.isEmpty then Assoc.get? r.types ("system." ++ lowered)
          else Assoc.get? r.types (Text.lower target)
      | none => Assoc.get? r.types ("system." ++ lowered)

def arrayOf (element : Text) : TypeModel :=
  { fullName := element ++ "[]", kind := .cls, baseType := some "System.Array", elementType := some element }

def getTypeWithin (r : Registry) : Nat → Text → Option TypeModel
  | 0, _ => none
  | fuel + 1, name =>
      let parsed := TypeName.parse name
      if parsed.isArray then
        let element := parsed.element
        some (arrayOf (((getTypeWithin r fuel element).map (·.fullName)).getD element))
      else r.lookup parsed.definition

/-- The type that a name stands for. Each array suffix takes two units, so the length of the name
bounds their number. -/
def getType (r : Registry) (name : Text) : Option TypeModel := r.getTypeWithin (name.length + 1) name

def resolveFullName (r : Registry) (name : Text) : Option Text := (r.getType name).map (·.fullName)

def allTypes (r : Registry) : List TypeModel := Assoc.values r.types

/-! Members. -/

/-- Methods hide methods, and all other members hide each other. -/
def memberKey (m : Member) : Text :=
  (if m.kind == .method then "m:" else "p:") ++ Text.lower m.name

structure Collected where
  members : List Member := []
  seen : List Text := []
  visited : List Text := []

/-- Adds the members that a type declares, unless a type before it declared their keys. -/
def Collected.add (found : Collected) (isStatic : Bool) (model : TypeModel) : Collected :=
  let fresh := model.members.filter fun m =>
    (m.isStatic == some true) == isStatic && !found.seen.contains (memberKey m)
  { members := found.members ++ fresh
    seen := found.seen ++ fresh.map memberKey
    visited := Text.lower model.fullName :: found.visited }

def parents (isStatic : Bool) (model : TypeModel) : List Text :=
  (model.baseType.toList.filter (!·.isEmpty)) ++ (if isStatic then [] else model.interfaces.getD [])

def collect (r : Registry) (isStatic : Bool) : Nat → List Text → Collected → Collected
  | 0, _, found => found
  | _, [], found => found
  | fuel + 1, name :: pending, found =>
      match r.getType name with
      | none => collect r isStatic fuel pending found
      | some model =>
          if found.visited.contains (Text.lower model.fullName) then
            collect r isStatic fuel pending found
          else collect r isStatic fuel (parents isStatic model ++ pending) (found.add isStatic model)

def mentions (r : Registry) : Nat :=
  r.allTypes.foldr (fun model total => (parents false model).length + total) 0

/-- Members declared on the type, its base types and, for instance access, its interfaces. Every
registered type is visited at most once, and every array type that some type mentions. -/
def getMembers (r : Registry) (typeName : Text) (isStatic : Bool) : List Member :=
  (r.collect isStatic (2 * r.mentions + 5) [typeName] {}).members

def getEnumValues (r : Registry) (typeName : Text) : Option (List Text) :=
  match r.getType typeName with
  | some model => if model.kind == .enumeration then some (model.enumValues.getD []) else none
  | none => none

def displayWithin (r : Registry) : Nat → Text → Text
  | 0, name => name
  | fuel + 1, name =>
      let parsed := TypeName.parse name
      if parsed.isArray then displayWithin r fuel parsed.element ++ "[]"
      else
        let fullName := (r.resolveFullName name).getD name
        (Assoc.get? r.displayNames (Text.lower fullName)).getD fullName

def getDisplayName (r : Registry) (typeName : Text) : Text := r.displayWithin (typeName.length + 1) typeName

def addType (r : Registry) (model : TypeModel) : Registry :=
  { r with types := Assoc.set r.types (Text.lower model.fullName) model }

end Registry

/-! Members attached to types. -/

structure Attachments where
  table : Assoc (List Member)

namespace Attachments

def bundled : Attachments :=
  ⟨Assoc.ofList (Bundled.attachedMembers.map fun (name, members) => (Text.lower name, members))⟩

def get (a : Attachments) (typeName : Text) : List Member :=
  (Assoc.get? a.table (Text.lower typeName)).getD []

def add (a : Attachments) (typeName : Text) (members : List Member) : Attachments :=
  ⟨Assoc.set a.table (Text.lower typeName) (a.get typeName ++ members)⟩

end Attachments

end TabCompletion
