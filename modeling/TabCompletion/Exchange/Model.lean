import TabCompletion.Completion.NativeTable
import TabCompletion.Completion.Result
import TabCompletion.Exchange.Tree
import TabCompletion.Types.Catalog

/-!
Descriptions of types and completion results in JSON.
-/

namespace TabCompletion.Exchange

def ofFlag (flag : Option Bool) : Json := .ofOption .bool flag

def ofText? (t : Option Text) : Json := .ofOption .text t

/-! Types. -/

def ofMember (m : Member) : Json :=
  let overload (o : Overload) : Json :=
    .array [.text o.returnType, .array (o.parameters.map fun p => .ofTexts [p.typeName, p.name])]
  .object [("name", .text m.name), ("memberType", .text m.kind.text), ("typeName", ofText? m.typeName),
    ("isStatic", ofFlag m.isStatic), ("isHidden", ofFlag m.isHidden), ("settable", ofFlag m.settable),
    ("overloads", .ofOption (fun overloads => .array (overloads.map overload)) m.overloads)]

def ofTypeModel (m : TypeModel) : Json :=
  .object [("fullName", .text m.fullName), ("kind", .text m.kind.text), ("baseType", ofText? m.baseType),
    ("interfaces", .ofOption .ofTexts m.interfaces), ("members", .array (m.members.map ofMember)),
    ("enumValues", .ofOption .ofTexts m.enumValues), ("isPublic", ofFlag m.isPublic),
    ("isNested", ofFlag m.isNested), ("elementType", ofText? m.elementType)]

def memberOf (j : Json) : Member :=
  let overload (o : Json) : Overload :=
    { returnType := textOf o "returnType"
      parameters := (o.get "parameters").items.map fun p =>
        { name := textOf p "name", typeName := textOf p "typeName" } }
  { name := textOf j "name"
    kind := (MemberKind.ofText? (textOf j "memberType")).getD .property
    typeName := textOf? j "typeName"
    isStatic := (j.get "isStatic").bool?
    isHidden := (j.get "isHidden").bool?
    settable := (j.get "settable").bool?
    overloads := (j.get "overloads").items?.map (·.map overload) }

def typeModelOf (j : Json) : TypeModel :=
  { fullName := textOf j "fullName"
    kind := (TypeKind.ofText? (textOf j "kind")).getD .cls
    baseType := textOf? j "baseType"
    interfaces := (j.get "interfaces").items?.map fun _ => textsOf (j.get "interfaces")
    members := (j.get "members").items.map memberOf
    enumValues := (j.get "enumValues").items?.map fun _ => textsOf (j.get "enumValues")
    isPublic := (j.get "isPublic").bool?
    isNested := (j.get "isNested").bool?
    elementType := textOf? j "elementType" }

def ofCatalogMatch (key : Text) (d : Descriptor) : Json :=
  let row (kind : String) (name : Text) (detail : Json) : Json :=
    .array [.text key, .text kind, .text name, detail]
  match d with
  | .type fullName accelerator => row "Type" fullName (ofText? accelerator)
  | .genericType fullName arity => row "GenericType" fullName (.ofInt arity)
  | .nameSpace name => row "Namespace" name .null
  | .typeName fullName arity => row "TypeName" fullName (.ofInt arity)

/-! The table of well-known commands. -/

def ofStrategy (s : NativeStrategy) : Json :=
  let named (name : String) (fields : List (Text × Json)) : Json :=
    .object (("strategy", .text name) :: fields)
  match s with
  | .sessionQuery query property toolTip numeric =>
      let explained : List (Text × Json) := toolTip.toList.map fun t => ("toolTipProperty", .text t)
      named "sessionQuery" (("query", .text query) :: ("valueProperty", .text property)
        :: ("numeric", .bool numeric) :: explained)
  | .module loadedOnly => named "module" [("loadedOnly", .bool loadedOnly)]
  | .command => named "command" []
  | .location literal => named "location" [("literal", .bool literal)]
  | .fixedValues values => named "staticValues" [("values", .ofTexts values)]
  | .pipelineMembers => named "pipelineMembers" []
  | .cimNamespace => named "cimNamespace" []
  | .cimClassName => named "cimClassName" []
  | .cimMethodName => named "cimMethodName" []
  | .cimResultClassName => named "cimResultClassName" []

/-! Results. -/

def ofResult (r : Result) : Json := .ofTexts [r.text, r.listItem, r.kind.text, r.toolTip]

def ofResults (results : List Result) : Json := .array (results.map ofResult)

def resultOf (j : Json) : Result :=
  let part (i : Nat) : Option Text := (j.items[i]?).bind Json.text?
  Result.create ((part 0).getD []) (((part 2).bind ResultKind.ofText?).getD .plainText) (part 1) (part 3)

end TabCompletion.Exchange
