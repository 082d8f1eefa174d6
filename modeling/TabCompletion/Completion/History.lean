import TabCompletion.Completion.Context

/-!
Completion from the command history: the entry of a number, or the newest entries that hold a text.
-/

namespace TabCompletion.Completion

structure HistoryEntry where
  id : Number
  commandLine : Text

def HistoryEntry.ofValue? (v : Value) : Option HistoryEntry :=
  match v.textProperty? "CommandLine", v.numberProperty? "Id" with
  | some commandLine, some id => some { id, commandLine }
  | _, _ => none

def listItemLength : Nat := 64

def firstLine (t : Text) : Text :=
  match Text.indexOf? "\n" t with
  | some i =>
      let line := t.take i
      if Text.endsWith line "\r" then line.dropLast else line
  | none => t

def HistoryEntry.listItem (e : HistoryEntry) : Text :=
  let line := firstLine e.commandLine
  if listItemLength < line.length || line != e.commandLine then line.take (listItemLength - 3) ++ "..."
  else line

def HistoryEntry.toResult (e : HistoryEntry) : Result :=
  Result.of e.commandLine .history e.listItem e.commandLine

def takeUpTo (limit : Number) (items : List α) : List α :=
  match limit with
  | .infinite false => items
  | n => items.take ((n.toInt?.getD 0).toNat)

def history (c : Context) : Engine (List Result) := do
  let word := if Text.startsWith c.word "#" then c.word.drop 1 else c.word
  if !word.isEmpty && word.all Text.isDigit then do
    let values ← Engine.query c.session
      { command := "Get-History", parameters := [("Id", .number (Number.ofText word))] }
    return ((values.findSome? HistoryEntry.ofValue?).map HistoryEntry.toResult).toList
  else do
    let values ← Engine.query c.session { command := "Get-History" }
    let newest := insertionSort (fun a b => b.id.lt a.id) (values.filterMap HistoryEntry.ofValue?)
    let pattern ← Engine.pattern ("*" ++ word ++ "*")
    let found := newest.filter fun entry => pattern.test entry.commandLine
    return takeUpTo c.options.maxHistoryEntries (Result.dedupe (found.map HistoryEntry.toResult))

end TabCompletion.Completion
