import TabCompletion.Assoc

/-!
Descriptions of types: their members, base types, interfaces and enumeration values.
-/

namespace TabCompletion

inductive TypeKind where
  | cls
  | struct
  | interface
  | enumeration
  | attribute
  deriving DecidableEq, Repr

def TypeKind.all : List TypeKind := [.cls, .struct, .interface, .enumeration, .attribute]

def TypeKind.text : TypeKind → Text
  | .cls => "Class"
  | .struct => "Struct"
  | .interface => "Interface"
  | .enumeration => "Enum"
  | .attribute => "Attribute"

inductive MemberKind where
  | property
  | field
  | method
  | event
  | noteProperty
  | aliasProperty
  | scriptProperty
  | scriptMethod
  | codeProperty
  deriving DecidableEq, Repr

def MemberKind.all : List MemberKind := [.property, .field, .method, .event, .noteProperty,
  .aliasProperty, .scriptProperty, .scriptMethod, .codeProperty]

def MemberKind.text : MemberKind → Text
  | .property => "Property"
  | .field => "Field"
  | .method => "Method"
  | .event => "Event"
  | .noteProperty => "NoteProperty"
  | .aliasProperty => "AliasProperty"
  | .scriptProperty => "ScriptProperty"
  | .scriptMethod => "ScriptMethod"
  | .codeProperty => "CodeProperty"

def TypeKind.ofText? (t : Text) : Option TypeKind := TypeKind.all.find? (·.text == t)

def MemberKind.ofText? (t : Text) : Option MemberKind := MemberKind.all.find? (·.text == t)

structure MethodParameter where
  name : Text
  typeName : Text

structure Overload where
  returnType : Text
  parameters : List MethodParameter

/-- A member of a type. A flag or list that is left out differs from one that is given. -/
structure Member where
  name : Text
  kind : MemberKind
  typeName : Option Text := none
  isStatic : Option Bool := none
  isHidden : Option Bool := none
  settable : Option Bool := none
  overloads : Option (List Overload) := none

def Member.isMethodLike (m : Member) : Bool := m.kind == .method || m.kind == .scriptMethod

def Member.isPropertyLike (m : Member) : Bool := !m.isMethodLike

/-- A type. `elementType` is present on array types, which are made on lookup. -/
structure TypeModel where
  fullName : Text
  kind : TypeKind
  baseType : Option Text := none
  interfaces : Option (List Text) := none
  members : List Member := []
  enumValues : Option (List Text) := none
  isPublic : Option Bool := none
  isNested : Option Bool := none
  elementType : Option Text := none

/-- A parameter written as its type, a space and its name; without the space there is no name. -/
def MethodParameter.ofText (t : Text) : MethodParameter :=
  match Text.lastIndexOf? " " t with
  | some (space + 1) => { typeName := t.take (space + 1), name := t.drop (space + 2) }
  | _ => { name := [], typeName := t }

end TabCompletion
