import TabCompletion.Editor.Server
import TabCompletion.Exchange.Tree

/-!
The protocol of the editor in JSON: events of the client and what the server gives back.
-/

namespace TabCompletion.Exchange

open Editor

/-! From the client. -/

def intOf (j : Json) (name : Text) : Int := (j.get name).int?.getD 0

def positionOf (j : Json) : Position := { line := intOf j "line", character := intOf j "character" }

def rangeOf? (j : Json) : Option Range :=
  match j.get "start", j.get "end" with
  | .object start, .object stop =>
      some { start := positionOf (.object start), stop := positionOf (.object stop) }
  | _, _ => none

def changeOf (j : Json) : Change :=
  let isMeasured := (j.field? "rangeLength").isSome
  match (j.get "text").text?, j.field? "range" with
  | some text, some range =>
      if isMeasured && (j.get "rangeLength").number?.isNone then .unreadable .unknownShape
      else match rangeOf? range with
        | some found => .splice found text
        | none => .unreadable .brokenRange
  | some text, none => if isMeasured then .unreadable .unknownShape else .replace text
  | none, _ => .unreadable .unknownShape

def eventOf? (name : Text) (params : Json) : Option Event :=
  let document := params.get "textDocument"
  let uri := textOf document "uri"
  let is (word : String) : Bool := name == Text.ofString word
  if is "Initialize" then some (.started (params.get "initializationOptions"))
  else if is "Initialized" then some .ready
  else if is "DidChangeConfiguration" then some (.configurationChanged (params.get "settings"))
  else if is "Completion" then some (.completionAsked uri (positionOf (params.get "position")))
  else if is "DidOpenTextDocument" then some (.opened uri (textOf document "text"))
  else if is "DidChangeTextDocument" then
    some (.changed uri (!(document.get "version").isNull) ((params.get "contentChanges").items.map changeOf))
  else if is "DidCloseTextDocument" then some (.closed uri)
  else none

/-! To the client. -/

def ofPosition (p : Position) : Json := .object [("line", .ofInt p.line), ("character", .ofInt p.character)]

def ofRange (r : Range) : Json := .object [("start", ofPosition r.start), ("end", ofPosition r.stop)]

def ofItem (i : Item) : Json :=
  .object [("label", .text i.label), ("kind", .ofNat i.kind.code), ("detail", .text i.detail),
    ("sortText", .text i.sortText), ("filterText", .text i.filterText),
    ("textEdit", .object [("range", ofRange i.range), ("newText", .text i.newText)])]

def ofItems (items : List Item) : Json := .array (items.map ofItem)

def incrementalSync : Nat := 2

def ofCapabilities : Json :=
  .object [("capabilities", .object [("textDocumentSync", .ofNat incrementalSync),
    ("completionProvider", .object [("resolveProvider", .bool false),
      ("triggerCharacters", .ofTexts (triggerCharacters.map Text.ofString))])])]

def ofReadyNotice (n : ReadyNotice) : Json :=
  .object [("message", .text n.message), ("sessionAvailable", .bool n.sessionAvailable)]

def ofOverrides (o : OptionOverrides) : Json :=
  let field (name : String) (value : Option Json) : List (Text × Json) :=
    value.toList.map fun v => (Text.ofString name, v)
  .object (field "literalPaths" (o.literalPaths.map .bool) ++ field "relativePaths" (o.relativePaths.map .bool)
    ++ field "ignoreHiddenShares" (o.ignoreHiddenShares.map .bool)
    ++ field "maxHistoryEntries" (o.maxHistoryEntries.map .number))

def ofConfiguration (c : Configuration) : Json :=
  .object [("logLevel", .text c.logLevel), ("completion", ofOverrides c.completion)]

end TabCompletion.Exchange
