import TabCompletion.Assoc
import TabCompletion.Sorting

/-!
Completion results and the orders in which they are listed.
-/

namespace TabCompletion

/-- The kind of a result; the order of the constructors is the order of mixed lists. -/
inductive ResultKind where
  | plainText | history | command | providerItem | providerContainer | property | method
  | parameterName | parameterValue | variable | nameSpace | type
  deriving DecidableEq

def ResultKind.names : List (ResultKind × String) := [
  (.plainText, "PlainText"), (.history, "History"), (.command, "Command"),
  (.providerItem, "ProviderItem"), (.providerContainer, "ProviderContainer"),
  (.property, "Property"), (.method, "Method"), (.parameterName, "ParameterName"),
  (.parameterValue, "ParameterValue"), (.variable, "Variable"), (.nameSpace, "Namespace"),
  (.type, "Type")]

def ResultKind.text (kind : ResultKind) : Text := (ResultKind.names.lookup kind).getD ""

def ResultKind.ofText? (name : Text) : Option ResultKind :=
  (ResultKind.names.find? fun entry => Text.ofString entry.2 == name).map (·.1)

structure Result where
  text : Text
  listItem : Text
  kind : ResultKind
  toolTip : Text

namespace Result

/-- A result; an empty list item becomes the text, and an empty explanation the list item. -/
def create (text : Text) (kind : ResultKind) (listItem : Option Text := none)
    (toolTip : Option Text := none) : Result :=
  let item := listItem.getD text
  let tip := toolTip.getD item
  let shown := if item.isEmpty then text else item
  { text, kind, listItem := shown, toolTip := if tip.isEmpty then shown else tip }

def of (text : Text) (kind : ResultKind) (listItem toolTip : Text) : Result :=
  create text kind (some listItem) (some toolTip)

def dedupe (results : List Result) : List Result := dedupeBy (fun r => Text.lower r.text) results

end Result

def sortExactFirst (word : Text) (key : α → Text) (items : List α) : List α :=
  let lowered := Text.lower word
  let isExact := fun item => Text.lower (key item) == lowered
  items.filter isExact ++ sortIgnoringCase key (items.filter fun item => !isExact item)

end TabCompletion
