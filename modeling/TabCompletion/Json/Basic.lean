import TabCompletion.Number.Decimal
import TabCompletion.Assoc

/-!
JSON values. An object keeps its fields in enumeration order: names that are array indexes come
first, in ascending order, and the others in the order in which they were first written.
-/

namespace TabCompletion

inductive Json where
  | null
  | bool (value : Bool)
  | number (value : Number)
  | text (value : Text)
  | array (items : List Json)
  | object (fields : List (Text × Json))

namespace Json

instance : Inhabited Json := ⟨.null⟩

instance : Coe Text Json := ⟨.text⟩

def indexBound : Nat := 4294967295

def arrayIndex? (name : Text) : Option Nat :=
  match Number.natInBase? 10 name with
  | some n => if n < indexBound ∧ Text.ofNat n = name then some n else none
  | none => none

def insertIndexed (index : Nat) (field : Text × α) :
    List (Nat × (Text × α)) → List (Nat × (Text × α))
  | [] => [(index, field)]
  | (other, old) :: rest =>
      if index ≤ other then (index, field) :: (other, old) :: rest
      else (other, old) :: insertIndexed index field rest

/-- Puts fields that were written in some order into enumeration order. -/
def enumerate {α : Type} (fields : List (Text × α)) : List (Text × α) :=
  let unique := Assoc.ofList fields
  let indexed := unique.foldl (fun sorted field =>
    match arrayIndex? field.1 with
    | some index => insertIndexed index field sorted
    | none => sorted) []
  indexed.map (·.2) ++ unique.filter fun field => (arrayIndex? field.1).isNone

def ofFields (fields : List (Text × Json)) : Json := .object (enumerate fields)

def field? (name : Text) : Json → Option Json
  | .object fields => fields.lookup name
  | _ => none

def get (j : Json) (name : Text) : Json := (j.field? name).getD .null

def text? : Json → Option Text
  | .text t => some t
  | _ => none

def bool? : Json → Option Bool
  | .bool b => some b
  | _ => none

def number? : Json → Option Number
  | .number n => some n
  | _ => none

def items? : Json → Option (List Json)
  | .array items => some items
  | _ => none

def items (j : Json) : List Json := j.items?.getD []

def fields : Json → List (Text × Json)
  | .object fields => fields
  | _ => []

def isNull : Json → Bool
  | .null => true
  | _ => false

def int? (j : Json) : Option Int := j.number?.bind Number.toInt?

def nat? (j : Json) : Option Nat := j.int?.map Int.toNat

def ofNat (n : Nat) : Json := .number (.ofNat n)

def ofInt (n : Int) : Json := .number (.ofInt n)

def ofTexts (texts : List Text) : Json := .array (texts.map .text)

def ofOption (encode : α → Json) : Option α → Json
  | some a => encode a
  | none => .null

end Json

end TabCompletion
