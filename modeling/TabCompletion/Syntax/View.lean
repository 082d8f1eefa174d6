import TabCompletion.Syntax.Script

/-!
Views of nodes: what a class definition declares, and what a declaration says about its variable.
-/

namespace TabCompletion

structure ClassMember where
  name : Text
  /-- The type of a property or what a method returns, if written. -/
  typeName : Option Text
  isStatic : Bool
  isHidden : Bool
  isMethod : Bool
  isConstructor : Bool
  parameters : List Node

namespace Node

def constraintName? (n : Option Node) : Option Text := (n.bind constraintType?).map (·.fullName)

def classMember? (n : Node) : Option ClassMember :=
  match n.form with
  | .propertyMember name propertyType isStatic isHidden _ =>
      some { name, typeName := constraintName? propertyType, isStatic, isHidden, isMethod := false,
             isConstructor := false, parameters := [] }
  | .functionMember name parameters returnType isStatic isHidden isConstructor _ =>
      some { name, typeName := constraintName? returnType, isStatic, isHidden, isMethod := true,
             isConstructor, parameters }
  | _ => none

def className (n : Node) : Text :=
  match n.form with
  | .typeDefinition name _ _ _ _ => name
  | _ => []

def baseTypeNames (n : Node) : List Text :=
  match n.form with
  | .typeDefinition _ _ _ bases _ => bases.filterMap fun b => b.constraintType?.map (·.fullName)
  | _ => []

def classMembers (n : Node) : List ClassMember :=
  match n.form with
  | .typeDefinition _ _ _ _ members => members.filterMap classMember?
  | _ => []

def isEnumDefinition (n : Node) : Bool :=
  match n.form with
  | .typeDefinition _ _ isEnum _ _ => isEnum
  | _ => false

def isClassDefinition (n : Node) : Bool :=
  match n.form with
  | .typeDefinition _ isClass _ _ _ => isClass
  | _ => false

def conversion? (n : Node) : Option (Text × Node) :=
  match n.form with
  | .convert target child => some ((constraintName? (some target)).getD [], child)
  | _ => none

def typeExpression? (n : Node) : Option WrittenType :=
  match n.form with
  | .typeExpression typeName => some typeName
  | _ => none

def constraintAmong? (attributes : List Node) : Option Text :=
  constraintName? (attributes.find? (·.kind == .typeConstraint))

def assignedPath? (n : Node) : Option Text :=
  match n.conversion? with
  | some (_, child) => child.variablePath?
  | none => n.variablePath?

def covers (outer inner : Node) : Bool := outer.start ≤ inner.start && inner.stop ≤ outer.stop

def statements (n : Node) : List Node :=
  match n.form with
  | .statementBlock statements | .scriptBlock _ _ statements => statements
  | _ => []

end Node

def findClass? (name : Text) (root : Option Node) : Option Node :=
  let lowered := Text.lower name
  root.bind fun top => top.preorder.find? fun n =>
    n.kind == .typeDefinition && Text.lower n.className == lowered

def variableScopes : List String := ["global", "local", "script", "private", "using"]

def unscopedName (path : Text) : Text :=
  match Text.indexOf? ":" path with
  | some colon =>
      let rest := path.drop (colon + 1)
      if variableScopes.any (fun scope => Text.sameIgnoringCase (path.take colon) scope)
          && !rest.any Text.isLineEnd then rest
      else path
  | none => path

end TabCompletion
