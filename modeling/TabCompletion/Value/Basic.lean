import TabCompletion.Number.Decimal
import TabCompletion.Syntax.Node

/-!
Values of a live session and of evaluated expressions. Compound values have an identity of their
own: two of them are equal only when they are the same value.
-/

namespace TabCompletion

/-- The identity of a compound value: where it came from and its number there. -/
inductive Ref where
  | session (number : Nat)
  | made (number : Nat)
  deriving DecidableEq

inductive Value where
  | undefined
  | null
  | bool (value : Bool)
  | number (value : Number)
  | text (value : Text)
  | array (ref : Ref) (items : List Value)
  | map (ref : Ref) (entries : List (Value × Value))
  /-- An object that carries its type names, most derived first. -/
  | object (ref : Ref) (typeNames : List Text) (properties : List (Text × Value))
  /-- The value of a type literal. -/
  | type (ref : Ref) (name : Text)
  /-- A script block that was never run. -/
  | scriptBlock (ref : Ref) (block : Node)
  /-- An object without a type. -/
  | plain (ref : Ref) (fields : List (Text × Value))
  | error (ref : Ref) (message : Text)

instance : Inhabited Value := ⟨.undefined⟩

namespace Value

def ref? : Value → Option Ref
  | .array r _ | .map r _ | .object r _ _ | .type r _ | .scriptBlock r _ | .plain r _
  | .error r _ => some r
  | _ => none

def identical (a b : Value) : Bool :=
  match a, b with
  | .undefined, .undefined | .null, .null => true
  | .bool x, .bool y => x == y
  | .number x, .number y => x.eq y
  | .text x, .text y => x == y
  | _, _ =>
      match a.ref?, b.ref? with
      | some x, some y => x == y
      | _, _ => false

/-- Identity of keys: as identity, but an absent number is the same key as itself. -/
def sameKey (a b : Value) : Bool :=
  match a, b with
  | .number x, .number y => x.eq y || (x.isNaN && y.isNaN)
  | _, _ => identical a b

def isPresent : Value → Bool
  | .undefined | .null => false
  | _ => true

def isTruthy : Value → Bool
  | .undefined | .null => false
  | .bool b => b
  | .number n => n.isTruthy
  | .text t => !t.isEmpty
  | _ => true

/-! Text and number of a value. -/

def errorText (message : Text) : Text :=
  if message.isEmpty then "Error" else "Error: " ++ message

mutual

/-- The plain text of a value; the items of an array are joined with commas. -/
def toText : Value → Text
  | .undefined => "undefined"
  | .null => "null"
  | .bool b => if b then "true" else "false"
  | .number n => n.toText
  | .text t => t
  | .array _ items => Text.join "," (itemTexts items)
  | .map _ _ => "[object Map]"
  | .error _ message => errorText message
  | _ => "[object Object]"

def itemTexts : List Value → List Text
  | [] => []
  | item :: rest => (if item.isPresent then toText item else []) :: itemTexts rest

end

mutual

/-- The text of a value inside a string: absence is empty, items are joined with spaces. -/
def format : Value → Text
  | .undefined | .null => []
  | .array _ items => Text.join " " (formatAll items)
  | .bool b => if b then "true" else "false"
  | .number n => n.toText
  | .text t => t
  | .map _ _ => "[object Map]"
  | .error _ message => errorText message
  | _ => "[object Object]"

def formatAll : List Value → List Text
  | [] => []
  | item :: rest => format item :: formatAll rest

end

def toNumber : Value → Number
  | .undefined => .nan
  | .null => .zero
  | .bool b => if b then .ofNat 1 else .zero
  | .number n => n
  | .text t => .ofText t
  | v => .ofText (toText v)

/-! Types and properties of a value. -/

def customObjectType : Text := "System.Management.Automation.PSCustomObject"

def typeNames : Value → List Text
  | .undefined | .null => []
  | .object _ names _ => names
  | .type _ _ => ["System.RuntimeType"]
  | .scriptBlock _ _ => ["System.Management.Automation.ScriptBlock"]
  | .array _ _ => ["System.Object[]"]
  | .map _ _ => ["System.Collections.Hashtable"]
  | .text _ => ["System.String"]
  | .number n => [if n.toInt?.isSome then "System.Int32" else "System.Double"]
  | .bool _ => ["System.Boolean"]
  | .plain _ _ | .error _ _ => [customObjectType]

def propertyNames : Value → List Text
  | .object _ _ properties => properties.map (·.1)
  | .plain _ fields => fields.map (·.1)
  | _ => []

def findEntry (name : Text) (entries : List (Text × Value)) : Value :=
  let lowered := Text.lower name
  ((entries.find? fun entry => Text.lower entry.1 == lowered).map (·.2)).getD .undefined

def property (v : Value) (name : Text) : Value :=
  match v with
  | .object _ _ properties => findEntry name properties
  | .map _ entries => findEntry name (entries.filterMap fun (key, value) =>
      match key with
      | .text t => some (t, value)
      | _ => none)
  | .plain _ fields => findEntry name fields
  | .type _ typeName => findEntry name [("typeName", .text typeName)]
  | _ => .undefined

def textProperty? (v : Value) (name : Text) : Option Text :=
  match v.property name with
  | .text t => some t
  | .number n => some n.toText
  | .bool b => some (if b then "true" else "false")
  | _ => none

def numberProperty? (v : Value) (name : Text) : Option Number :=
  match v.property name with
  | .number n => some n
  | .text t =>
      if (Text.trim t).isEmpty || (Number.ofText t).isNaN then none else some (Number.ofText t)
  | _ => none

end Value

end TabCompletion
