import TabCompletion.Evaluation.Safety
import TabCompletion.Assoc
import TabCompletion.Value.Basic

/-!
Evaluation of safe expressions. The evaluator reads session variables and nothing else; it makes
new compound values with fresh identities. An expression that is not safe is refused before
anything is evaluated.
-/

namespace TabCompletion.Evaluation

inductive Failure where
  /-- The node has no value for the given reason. -/
  | refused (kind : NodeKind) (reason : Text)
  /-- A text was to be repeated without end. -/
  | endlessRepetition
  /-- A text would become too long. -/
  | textTooLong
  /-- A range counts without end. -/
  | endlessRange

def Failure.message : Failure → Text
  | .refused kind reason => "Cannot evaluate " ++ kind.text ++ ": " ++ reason
  | .endlessRepetition => "Invalid count value: Infinity"
  | .textTooLong => "Invalid string length"
  | .endlessRange => "Invalid array length"

abbrev Eval := StateT Nat (Except Failure)

def fresh : Eval Ref := modifyGet fun n => (.made n, n + 1)

def newArray (items : List Value) : Eval Value := return .array (← fresh) items

def refuse (kind : NodeKind) (reason : Text) : Eval α := throw (.refused kind reason)

/-! Operations on values. -/

/-- Replaces every occurrence of `needle`, from the left and without overlap; `skip` units are
still covered by the last occurrence. -/
def replaceFrom (needle replacement : Text) : Nat → Text → Text
  | _, [] => []
  | skip + 1, _ :: rest => replaceFrom needle replacement skip rest
  | 0, u :: rest =>
      if needle.isPrefixOf (u :: rest) then
        replacement ++ replaceFrom needle replacement (needle.length - 1) rest
      else u :: replaceFrom needle replacement 0 rest

/-- Replaces every occurrence of `needle`; the empty text occurs between all units. -/
def replaceAll (needle replacement t : Text) : Text :=
  if needle.isEmpty then Text.join replacement (t.map fun (u : CodeUnit) => [u])
  else replaceFrom needle replacement 0 t

def maxTextLength : Nat := 536870888

/-- A text repeated; a count that is no number or below zero repeats nothing. -/
def repeatText (t : Text) (count : Number) : Eval Value :=
  match count with
  | .infinite false => throw .endlessRepetition
  | .finite false mantissa exponent =>
      let n := (Number.floorInt false mantissa exponent).toNat
      if maxTextLength < n * t.length then throw .textTooLong
      else return .text (List.replicate n t).flatten
  | _ => return .text []

/-- Counts from `i` on while it does not pass `last`, collecting last first. A number so great that
a step leaves it as it is would be counted without end. -/
def countFrom (step last : Number) (within : Number → Number → Bool) :
    Nat → Number → List Value → Option (List Value)
  | fuel, i, counted =>
      if within i last then
        let next := i.add step
        if next = i then none
        else match fuel with
          | 0 => none
          | fuel + 1 => countFrom step last within fuel next (.number i :: counted)
      else some counted.reverse

/-- Enough turns for a distance of which each turn covers at least a half. -/
def turnBound : Number → Number → Nat
  | .finite s m e, .finite t n f =>
      let common := min e f
      let distance := Number.aligned s m e common - Number.aligned t n f common
      2 * (Number.floorInt false distance.natAbs common).toNat + 3
  | _, _ => 0

/-- The numbers from `first` to `last` in steps of one; absent when counting never ends. -/
def range? (first last : Number) : Option (List Value) :=
  if first.le last then count (.ofNat 1) Number.le
  else count (.ofInt (-1)) fun i last => last.le i
where
  count (step : Number) (within : Number → Number → Bool) : Option (List Value) :=
    countFrom step last within (turnBound last (first.add step) + 1) first []

/-- Truth of a condition: an array is true when it holds something. -/
def holds : Value → Bool
  | .array _ items => !items.isEmpty
  | v => v.isTruthy

/-- Equality of the shell: texts ignore case, a number compares with anything as a number. -/
def looselyEqual (left right : Value) : Bool :=
  match left, right with
  | .text a, .text b => Text.lower a == Text.lower b
  | .number _, _ | _, .number _ => left.toNumber.eq right.toNumber
  | _, _ => left.identical right

def setEntry (key value : Value) : List (Value × Value) → List (Value × Value)
  | [] => [(key, value)]
  | (other, old) :: rest =>
      if other.sameKey key then (other, value) :: rest else (other, old) :: setEntry key value rest

def toCustomObject : Value → Eval Value
  | .map _ entries => do
      let properties := entries.foldl (fun table (key, value) => Assoc.set table key.format value) []
      return .object (← fresh) [Value.customObjectType] properties
  | v => return v

/-- The item at a position counted from the start, or from the end if it is negative. -/
def itemAt (items : List α) (index : Number) : Option α :=
  let position := if index.lt .zero then (Number.ofNat items.length).add index else index
  match position.toInt? with
  | some i => if i < 0 then none else items[i.toNat]?
  | none => none

def valueAt (kind : NodeKind) (target index : Value) : Eval Value :=
  match target, index with
  | .array _ items, .number n => return (itemAt items n).getD .undefined
  | .text t, .number n => return ((itemAt t n).map fun u => Value.text [u]).getD .undefined
  | .map _ entries, _ =>
      let found := ((entries.find? fun entry => entry.1.sameKey index).map (·.2)).getD .undefined
      return if found.isPresent then found else target.property index.format
  | _, _ => refuse kind "unsupported index target"

def memberOf (kind : NodeKind) (target : Value) (name : Node) (isStatic : Bool) : Eval Value :=
  match name.stringConstant? with
  | none => refuse kind "dynamic member name"
  | some name =>
      let lowered := Text.lower name
      let isCount := lowered == Text.ofString "count"
      let isLength := isCount || lowered == Text.ofString "length"
      match isStatic, target with
      | true, _ | _, .type _ _ => refuse kind "static member values are not available"
      | _, .text t => return if isLength then .number (.ofNat t.length) else target.property name
      | _, .array _ items =>
          return if isLength then .number (.ofNat items.length) else target.property name
      | _, .map _ entries =>
          return if isCount then .number (.ofNat entries.length) else target.property name
      | _, _ => return target.property name

def convertTo (kind : NodeKind) (typeName : Text) (value : Value) : Eval Value :=
  let lowered := Text.lower typeName
  let isOneOf (names : List String) : Bool := names.any fun n => Text.ofString n == lowered
  if isOneOf ["string", "system.string"] then return .text value.format
  else if isOneOf ["int", "int32", "long", "system.int32", "system.int64"] then
    let converted := value.toNumber
    if converted.isNaN then
      refuse kind ("cannot convert '" ++ value.format ++ "' to a number")
    else return .number converted.roundHalfUp
  else if isOneOf ["double", "system.double"] then return .number value.toNumber
  else if isOneOf ["bool", "system.boolean"] then return .bool value.isTruthy
  else if isOneOf ["array", "object[]"] then
    match value with
    | .array _ _ => return value
    | _ => newArray [value]
  else if isOneOf ["pscustomobject", "system.management.automation.pscustomobject"] then
    toCustomObject value
  else return value

def applyUnary (kind : NodeKind) (operator : Text) (value : Value) : Eval Value :=
  let lowered := Text.lower operator
  if lowered == Text.ofString "-" then return .number value.toNumber.neg
  else if lowered == Text.ofString "+" then return .number value.toNumber
  else if lowered == Text.ofString "!" || lowered == Text.ofString "-not" then
    return .bool (!holds value)
  else if lowered == Text.ofString "," then newArray [value]
  else refuse kind ("operator " ++ operator)

def plus (left right : Value) : Eval Value :=
  match left, right with
  | .array _ items, .array _ more => newArray (items ++ more)
  | .array _ items, _ => newArray (items ++ [right])
  | .text t, _ => return .text (t ++ right.format)
  | _, _ => return .number (left.toNumber.add right.toNumber)

def applyBinary (kind : NodeKind) (operator : Text) (left right : Value) : Eval Value :=
  let lowered := Text.lower operator
  let is (name : String) : Bool := lowered == Text.ofString name
  let a := left.toNumber
  let b := right.toNumber
  if is "+" then plus left right
  else if is "-" then return .number (a.sub b)
  else if is "*" then
    match left, right with
    | .text t, .number n => repeatText t n
    | _, _ => return .number (a.mul b)
  else if is "/" then return .number (a.div b)
  else if is "%" then return .number (a.rem b)
  else if is "-eq" then return .bool (looselyEqual left right)
  else if is "-ne" then return .bool (!looselyEqual left right)
  else if is "-gt" then return .bool (b.lt a)
  else if is "-ge" then return .bool (b.le a)
  else if is "-lt" then return .bool (a.lt b)
  else if is "-le" then return .bool (a.le b)
  else if is "-and" then return .bool (holds left && holds right)
  else if is "-or" then return .bool (holds left || holds right)
  else if is "-join" then
    match left with
    | .array _ items => return .text (Text.join right.format (items.map Value.format))
    | _ => return .text left.format
  else if is ".." then
    match range? a b with
    | some values => newArray values
    | none => throw .endlessRange
  else refuse kind ("operator " ++ operator)

/-! The evaluator. -/

abbrev Variables := Option (Text → Value)

def variableValue (scope : Variables) (kind : NodeKind) (path : Text) : Eval Value :=
  let lowered := Text.lower path
  if lowered == Text.ofString "true" then return .bool true
  else if lowered == Text.ofString "false" then return .bool false
  else if lowered == Text.ofString "null" then return .null
  else match scope with
    | some read => return read path
    | none => refuse kind "no live session"

mutual

def evaluate (scope : Variables) : Node → Eval Value
  | .mk _ _ form =>
      match form with
      | .constant .null => return .null
      | .constant (.bool b) => return .bool b
      | .constant (.number n) => return .number n
      | .stringConstant value _ => return .text value
      | .expandableString value _ nested => fill scope value nested
      | .variable path _ => variableValue scope .variable path
      | .typeExpression typeName => return .type (← fresh) typeName.fullName
      | .scriptBlockExpression body => return .scriptBlock (← fresh) body
      | .convert target child => do
          let value ← evaluate scope child
          convertTo .convert ((target.constraintType?.map (·.fullName)).getD []) value
      | .member target name isStatic => do
          let value ← evaluate scope target
          memberOf .member value name isStatic
      | .index target position => do
          let value ← evaluate scope target
          let index ← evaluate scope position
          valueAt .index value index
      | .unary operator child => do
          let value ← evaluate scope child
          applyUnary .unary operator value
      | .binary operator left right _ => do
          let leftValue ← evaluate scope left
          let rightValue ← evaluate scope right
          applyBinary .binary operator leftValue rightValue
      | .arrayLiteral elements => do
          let values ← evaluateAll scope elements
          newArray values
      | .arrayExpression (.mk _ _ (.statementBlock statements)) => do
          let values ← outputs scope statements
          newArray values
      | .subExpression (.mk _ _ (.statementBlock statements)) => do
          match ← outputs scope statements with
          | [value] => return value
          | values => newArray values
      | .hashtable pairs => do
          let entries ← evaluatePairs scope pairs []
          return .map (← fresh) entries
      | .paren inner => evaluate scope inner
      | .pipeline (element :: _) => evaluate scope element
      | .commandExpression expression _ => evaluate scope expression
      | other => refuse other.kind "not evaluable"

def evaluateAll (scope : Variables) : List Node → Eval (List Value)
  | [] => return []
  | node :: rest => do
      let value ← evaluate scope node
      let values ← evaluateAll scope rest
      return value :: values

/-- What statements write: the items of arrays and all other values. -/
def outputs (scope : Variables) : List Node → Eval (List Value)
  | [] => return []
  | statement :: rest => do
      let value ← evaluate scope statement
      let values ← outputs scope rest
      match value with
      | .array _ items => return items ++ values
      | _ => return value :: values

def evaluatePairs (scope : Variables) :
    List (Node × Node) → List (Value × Value) → Eval (List (Value × Value))
  | [], entries => return entries
  | (key, value) :: rest, entries => do
      let keyValue ← evaluate scope key
      let entryValue ← evaluate scope value
      evaluatePairs scope rest (setEntry keyValue entryValue entries)

/-- Replaces the source text of each nested expression by its value, in order. -/
def fill (scope : Variables) (text : Text) : List Node → Eval Value
  | [] => return .text text
  | nested :: rest => do
      let value ← evaluate scope nested
      fill scope (replaceAll nested.text value.format text) rest

end

inductive Outcome where
  | value (value : Value)
  | none (reason : Text)

def attempt (scope : Variables) (node : Node) : Outcome :=
  if isSafe node then
    match (evaluate scope node).run 0 with
    | .ok (value, _) => .value value
    | .error failure => .none failure.message
  else .none (node.kind.text ++ " may have side effects")

end TabCompletion.Evaluation
