import TabCompletion.Json.Writer
import TabCompletion.Value.Basic

/-!
Values written as JSON text, for log lines. What JSON has no form of becomes an empty object, and an
absent field is left out.
-/

namespace TabCompletion.Value

mutual

def toJson? : Value → Option Json
  | .undefined => none
  | .null => some .null
  | .bool b => some (.bool b)
  | .number n => some (if n.isFinite then .number n else .null)
  | .text t => some (.text t)
  | .array _ items => some (.array (jsonItems items))
  | .map _ _ | .error _ _ => some (.object [])
  | .object _ names _ => some (.object [("typeNames", .ofTexts names), ("properties", .object [])])
  | .type _ name => some (.object [("typeName", .text name)])
  | .scriptBlock _ _ => some (.object [])
  | .plain _ fields => some (.object (jsonFields fields))

def jsonItems : List Value → List Json
  | [] => []
  | item :: rest => ((toJson? item).getD .null) :: jsonItems rest

def jsonFields : List (Text × Value) → List (Text × Json)
  | [] => []
  | (name, value) :: rest =>
      match toJson? value with
      | some j => (name, j) :: jsonFields rest
      | none => jsonFields rest

end

def logText : Value → Text
  | .error _ message => message
  | v@(.undefined) | v@(.null) | v@(.bool _) | v@(.number _) | v@(.text _) => v.toText
  | v => ((v.toJson?).map Json.write).getD []

def thrownText : Value → Text
  | .error _ message => message
  | v => v.toText

end TabCompletion.Value
