import TabCompletion.Evaluation.Evaluate
import TabCompletion.Exchange.Tree

/-!
Session values in JSON. Plain JSON stands for itself; an object with one name that starts with a
dollar sign stands for a value that JSON has no form of. Written values carry a tag for their kind.
-/

namespace TabCompletion.Exchange

def freshRef : StateM Nat Ref := modifyGet fun n => (.session n, n + 1)

/-- Reads a value; every compound value gets an identity of its own. -/
def valueWithin : Nat → Json → StateM Nat Value
  | 0, _ => return .undefined
  | fuel + 1, j =>
      match j with
      | .null => return .null
      | .bool b => return .bool b
      | .number n => return .number n
      | .text t => return .text t
      | .array items => do
          let values ← items.mapM (valueWithin fuel)
          return .array (← freshRef) values
      | .object [(name, inner)] =>
          if name == Text.ofString "$undefined" then return .undefined
          else if name == Text.ofString "$num" then return .number (.ofText (inner.text?.getD []))
          else if name == Text.ofString "$map" then do
            let entries ← inner.items.mapM fun pair => do
              let key ← valueWithin fuel (pair.items.headD .null)
              let value ← valueWithin fuel (pair.items.getD 1 .null)
              return (key, value)
            let table := entries.foldl (fun table (key, value) => Evaluation.setEntry key value table) []
            return .map (← freshRef) table
          else if name == Text.ofString "$object" then do
            let properties ← (inner.get "props").items.mapM fun pair => do
              let value ← valueWithin fuel (pair.items.getD 1 .null)
              return ((pair.items.headD .null).text?.getD [], value)
            return .object (← freshRef) (textsOf (inner.get "types")) (Assoc.ofList properties)
          else if name == Text.ofString "$type" then return .type (← freshRef) (inner.text?.getD [])
          else if name == Text.ofString "$error" then return .error (← freshRef) (inner.text?.getD [])
          else do
            let value ← valueWithin fuel inner
            return .plain (← freshRef) [(name, value)]
      | .object fields => do
          let values ← fields.mapM fun (name, inner) => do
            let value ← valueWithin fuel inner
            return (name, value)
          return .plain (← freshRef) values

def valueOf (j : Json) : StateM Nat Value := valueWithin (depth j) j

def tagged (tag : String) (value : Json) : Json := .object [("t", .text tag), ("v", value)]

mutual

def ofValue : Value → Json
  | .undefined => .object [("t", .text "undefined")]
  | .null => .object [("t", .text "null")]
  | .bool b => tagged "boolean" (.bool b)
  | .number n => tagged "number" (.text n.toText)
  | .text t => tagged "string" (.text t)
  | .array _ items => tagged "array" (.array (ofValues items))
  | .map _ entries => tagged "map" (.array (ofEntries entries))
  | .object _ types properties =>
      .object [("t", .text "object"), ("types", .ofTexts types), ("v", .array (ofProperties properties))]
  | .type _ name => tagged "type" (.text name)
  | .scriptBlock _ block => tagged "scriptblock" (.array [.ofNat block.start, .ofNat block.stop])
  | .plain _ fields => tagged "plain" (.array (ofProperties fields))
  | .error _ _ => tagged "plain" (.array [])

def ofValues : List Value → List Json
  | [] => []
  | value :: rest => ofValue value :: ofValues rest

def ofEntries : List (Value × Value) → List Json
  | [] => []
  | (key, value) :: rest => .array [ofValue key, ofValue value] :: ofEntries rest

def ofProperties : List (Text × Value) → List Json
  | [] => []
  | (name, value) :: rest => .array [.text name, ofValue value] :: ofProperties rest

end

end TabCompletion.Exchange
