import TabCompletion.Assoc

/-!
Management classes of a remote server, and the type names under which they are known.
-/

namespace TabCompletion.Cim

structure Property where
  name : Text
  type : Text

structure Method where
  name : Text
  isStatic : Bool
  returnType : Option Text
  /-- Names and types of the parameters. -/
  parameters : List Property

structure ClassInfo where
  nameSpace : Text
  className : Text
  properties : List Property
  methods : List Method

structure Enumeration (α : Type) where
  items : List α
  fails : Bool := false

/-- A server. `opens` says whether a session can be opened and `closes` whether closing one goes
without a failure; the other fields answer in a session. -/
structure Server where
  opens : Bool := true
  closes : Bool := true
  /-- A class by namespace and name; the outer `none` is a failure. -/
  classInfo : Text → Text → Option (Option ClassInfo)
  /-- The classes of a namespace. -/
  classes : Text → Enumeration ClassInfo
  /-- The names of the child namespaces; an instance without a name has none. -/
  childNames : Text → Enumeration (Option Text)
  /-- The names of the classes associated with a class. -/
  associated : Text → Text → Enumeration Text

/-! Type names. -/

def instanceType : Text := "Microsoft.Management.Infrastructure.CimInstance"

def defaultNamespace : Text := "root/cimv2"

def typeName (nameSpace className : Text) : Text := instanceType ++ "#" ++ nameSpace ++ "/" ++ className

def ofTypeName? (name : Text) : Option (Text × Text) :=
  let head := instanceType ++ "#"
  if Text.startsWith (Text.lower name) (Text.lower head) then
    let path := name.drop head.length
    match Text.lastIndexOf? "/" path with
    | some slash =>
        if slash = 0 || slash + 1 = path.length then none
        else some (path.take slash, path.drop (slash + 1))
    | none => none
  else none

/-! Servers that answer from tables. -/

inductive Call where
  | createSession | getClass | enumerateClasses | enumerateInstances | queryAssociators
  deriving DecidableEq

structure Table where
  classes : List ClassInfo
  /-- Names of child namespaces by namespace. -/
  namespaces : Assoc (List (Option Text))
  /-- Associated classes by namespace, colon and class. -/
  associators : Assoc (Enumeration Text)
  failsOn : Option Call := none
  failsOnDispose : Bool := false

def Table.toServer (t : Table) : Server :=
  let listed {α : Type} (call : Call) (rows : Enumeration α) : Enumeration α :=
    if t.failsOn == some call then { items := [], fails := true } else rows
  { opens := t.failsOn != some .createSession
    closes := !t.failsOnDispose
    classInfo := fun nameSpace className =>
      if t.failsOn == some .getClass then none
      else some (t.classes.find? fun c =>
        Text.lower c.nameSpace == Text.lower nameSpace && Text.lower c.className == Text.lower className)
    classes := fun nameSpace => listed .enumerateClasses
      { items := t.classes.filter fun c => Text.lower c.nameSpace == Text.lower nameSpace }
    childNames := fun nameSpace => listed .enumerateInstances
      { items := (Assoc.get? t.namespaces nameSpace).getD [] }
    associated := fun nameSpace className => listed .queryAssociators
      ((Assoc.get? t.associators (nameSpace ++ ":" ++ className)).getD { items := [] }) }

end TabCompletion.Cim
