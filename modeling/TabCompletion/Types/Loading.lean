import TabCompletion.Json.Writer
import TabCompletion.Types.Model

/-!
Reading descriptions of types from data. An entry without the expected shape is skipped with a
warning, and a badly typed optional part counts as left out.
-/

namespace TabCompletion.Loading

abbrev Loader := StateM (List Text)

def warn (message : Text) : Loader Unit := modify (· ++ [message])

def collect (loader : Loader α) : α × List Text := loader.run []

def keepReadable (noun : String) (read : Json → Loader (Option α)) : List Json → Loader (List α)
  | [] => return []
  | item :: rest => do
      match ← read item with
      | some value => return value :: (← keepReadable noun read rest)
      | none => do
          warn ("⚠️ Skipping " ++ Text.ofString noun ++ " entry: " ++ Json.write item)
          keepReadable noun read rest

def texts (j : Json) : List Text := j.items.filterMap Json.text?

def texts? (j : Json) (name : Text) : Option (List Text) := (j.field? name).map texts

def textMap (j : Json) : Assoc Text :=
  j.fields.filterMap fun (name, value) => value.text?.map (name, ·)

def overload? (j : Json) : Option Overload :=
  (j.get "returnType").text?.map fun returnType =>
    { returnType, parameters := (texts (j.get "parameters")).map MethodParameter.ofText }

def member? (j : Json) : Option Member :=
  match (j.get "name").text?, (j.get "memberType").text?.bind MemberKind.ofText? with
  | some name, some kind =>
      some
        { name, kind
          typeName := (j.get "typeName").text?
          isStatic := (j.get "isStatic").bool?
          isHidden := (j.get "isHidden").bool?
          settable := (j.get "settable").bool?
          overloads := (j.field? "overloads").map (·.items.filterMap overload?) }
  | _, _ => none

def members (j : Json) : Loader (List Member) :=
  keepReadable "malformed member" (fun item => return member? item) j.items

def typeModel? (j : Json) : Loader (Option TypeModel) := do
  match (j.get "fullName").text?, (j.get "kind").text?.bind TypeKind.ofText? with
  | some fullName, some kind =>
      return some
        { fullName, kind
          members := ← members (j.get "members")
          baseType := (j.get "baseType").text?
          interfaces := texts? j "interfaces"
          enumValues := texts? j "enumValues"
          isPublic := (j.get "isPublic").bool?
          isNested := (j.get "isNested").bool? }
  | _, _ => return none

def typeModels (j : Json) : Loader (List TypeModel) :=
  keepReadable "malformed type" typeModel? j.items

def memberTable (j : Json) : Loader (Assoc (List Member)) :=
  j.fields.mapM fun (name, value) => return (name, ← members value)

end TabCompletion.Loading
