import TabCompletion.Types.Model

/-!
Short forms for writing down members of types. A signature is its return type and its parameters,
each parameter its type and its name.
-/

namespace TabCompletion.Declaration

def overload (signature : String × List String) : Overload :=
  { returnType := signature.1, parameters := signature.2.map fun (p : String) => .ofText p }

def method (name : String) (signatures : List (String × List String)) : Member :=
  { name, kind := .method, overloads := some (signatures.map overload) }

def staticMethod (name : String) (signatures : List (String × List String)) : Member :=
  { method name signatures with isStatic := some true }

def member (kind : MemberKind) (name typeName : String) : Member :=
  { name, kind, typeName := some typeName }

def property (name typeName : String) : Member := member .property name typeName

def readOnly (name typeName : String) : Member :=
  { property name typeName with settable := some false }

def staticProperty (name typeName : String) : Member :=
  { property name typeName with isStatic := some true }

def staticReadOnly (name typeName : String) : Member :=
  { readOnly name typeName with isStatic := some true }

def constant (name typeName : String) : Member :=
  { member .field name typeName with isStatic := some true }

end TabCompletion.Declaration
