import TabCompletion.Types.Loading

/-!
The table of well-known commands: how the values of their parameters are completed.
-/

namespace TabCompletion

inductive NativeStrategy where
  /-- Values are read from what a session query answers. -/
  | sessionQuery (query valueProperty : Text) (toolTipProperty : Option Text) (numeric : Bool)
  | module (loadedOnly : Bool)
  | command
  | location (literal : Bool)
  | fixedValues (values : List Text)
  /-- Property names of what the pipeline hands over. -/
  | pipelineMembers
  | cimNamespace
  | cimClassName
  | cimMethodName
  | cimResultClassName

structure NativeEntry where
  strategy : NativeStrategy
  commands : List Text
  parameters : List Text

abbrev NativeTable := Assoc NativeStrategy

namespace NativeTable

def key (command parameter : Text) : Text := Text.lower (command ++ ":" ++ parameter)

/-- The table of some entries; an earlier entry wins. -/
def ofEntries (entries : List NativeEntry) : NativeTable :=
  entries.foldl (fun table entry =>
    entry.commands.foldl (fun table command =>
      entry.parameters.foldl (fun table parameter =>
        let key := key command parameter
        if Assoc.has table key then table else Assoc.set table key entry.strategy) table) table) []

def strategy? (j : Json) : Option NativeStrategy :=
  let flag (name : String) : Bool := (j.get name).bool?.getD false
  match (j.get "strategy").text?.map Text.toStr with
  | some "sessionQuery" =>
      match (j.get "query").text?, (j.get "valueProperty").text? with
      | some query, some property =>
          some (.sessionQuery query property (j.get "toolTipProperty").text? (flag "numeric"))
      | _, _ => none
  | some "module" => some (.module (flag "loadedOnly"))
  | some "location" => some (.location (flag "literal"))
  | some "staticValues" => some (.fixedValues (Loading.texts (j.get "values")))
  | some "command" => some .command
  | some "pipelineMembers" => some .pipelineMembers
  | some "cimNamespace" => some .cimNamespace
  | some "cimClassName" => some .cimClassName
  | some "cimMethodName" => some .cimMethodName
  | some "cimResultClassName" => some .cimResultClassName
  | _ => none

def entry? (j : Json) : Option NativeEntry :=
  (strategy? j).map fun strategy =>
    { strategy, commands := Loading.texts (j.get "commands"),
      parameters := Loading.texts (j.get "parameters") }

def load (j : Json) : Loading.Loader NativeTable := do
  let entries ← Loading.keepReadable "invalid native command" (fun item => return entry? item)
    (j.get "entries").items
  return ofEntries entries

def bundledEntries : List NativeEntry := [
  { strategy := .sessionQuery "Get-Job" "Id" (some "Name") true,
    commands := ["Get-Job", "Receive-Job", "Remove-Job", "Stop-Job", "Wait-Job", "Suspend-Job",
      "Resume-Job", "Debug-Job"],
    parameters := ["Id"] },
  { strategy := .sessionQuery "Get-Job" "Name" none false,
    commands := ["Get-Job", "Receive-Job", "Remove-Job", "Stop-Job", "Wait-Job", "Suspend-Job",
      "Resume-Job", "Debug-Job"],
    parameters := ["Name"] },
  { strategy := .sessionQuery "Get-Job" "InstanceId" (some "Name") false,
    commands := ["Get-Job", "Receive-Job", "Remove-Job", "Stop-Job", "Wait-Job", "Suspend-Job",
      "Resume-Job", "Debug-Job"],
    parameters := ["InstanceId"] },
  { strategy := .sessionQuery "Get-ScheduledJob" "Id" (some "Name") true,
    commands := ["Get-ScheduledJob", "Disable-ScheduledJob", "Enable-ScheduledJob",
      "Unregister-ScheduledJob"],
    parameters := ["Id"] },
  { strategy := .sessionQuery "Get-ScheduledJob" "Name" none false,
    commands := ["Get-ScheduledJob", "Disable-ScheduledJob", "Enable-ScheduledJob",
      "Unregister-ScheduledJob"],
    parameters := ["Name"] },
  { strategy := .module false,
    commands := ["Import-Module", "Get-Module", "Update-Help", "Save-Help"],
    parameters := ["Name", "Module"] },
  { strategy := .module true,
    commands := ["Remove-Module"],
    parameters := ["Name"] },
  { strategy := .module false,
    commands := ["Get-Command"],
    parameters := ["Module"] },
  { strategy := .sessionQuery "Get-Process" "Name" none false,
    commands := ["Get-Process", "Stop-Process", "Wait-Process", "Debug-Process"],
    parameters := ["Name", "ProcessName"] },
  { strategy := .sessionQuery "Get-Process" "Id" (some "Name") true,
    commands := ["Get-Process", "Stop-Process", "Wait-Process", "Debug-Process"],
    parameters := ["Id"] },
  { strategy := .sessionQuery "Get-PSProvider" "Name" none false,
    commands := ["Get-PSProvider", "Get-PSDrive", "New-PSDrive", "Get-ChildItem", "Get-Item",
      "Get-Location"],
    parameters := ["PSProvider"] },
  { strategy := .sessionQuery "Get-PSDrive" "Name" (some "Root") false,
    commands := ["Get-PSDrive", "Remove-PSDrive", "Get-Location"],
    parameters := ["Name", "PSDrive"] },
  { strategy := .sessionQuery "Get-Service" "Name" (some "DisplayName") false,
    commands := ["Get-Service", "Start-Service", "Stop-Service", "Restart-Service", "Suspend-Service",
      "Resume-Service", "Set-Service"],
    parameters := ["Name"] },
  { strategy := .sessionQuery "Get-Service" "DisplayName" (some "Name") false,
    commands := ["Get-Service", "Start-Service", "Stop-Service", "Restart-Service", "Suspend-Service",
      "Resume-Service"],
    parameters := ["DisplayName"] },
  { strategy := .sessionQuery "Get-Variable" "Name" none false,
    commands := ["Get-Variable", "Set-Variable", "Clear-Variable", "Remove-Variable", "New-Variable"],
    parameters := ["Name"] },
  { strategy := .sessionQuery "Get-Alias" "Name" (some "Definition") false,
    commands := ["Get-Alias", "Set-Alias", "New-Alias", "Export-Alias"],
    parameters := ["Name"] },
  { strategy := .sessionQuery "Get-TraceSource" "Name" none false,
    commands := ["Get-TraceSource", "Set-TraceSource", "Trace-Command"],
    parameters := ["Name"] },
  { strategy := .sessionQuery "Get-Verb" "Verb" (some "Group") false,
    commands := ["Get-Command", "Get-Verb"],
    parameters := ["Verb"] },
  { strategy := .sessionQuery "Get-History" "Id" (some "CommandLine") true,
    commands := ["Get-History", "Invoke-History", "Clear-History"],
    parameters := ["Id"] },
  { strategy := .command,
    commands := ["Get-Command", "Get-Help", "Show-Command"],
    parameters := ["Name"] },
  { strategy := .location false,
    commands := ["Set-Location", "Push-Location"],
    parameters := ["Path"] },
  { strategy := .location true,
    commands := ["Set-Location", "Push-Location"],
    parameters := ["LiteralPath"] },
  { strategy := .fixedValues ["File", "Directory", "SymbolicLink", "Junction", "HardLink"],
    commands := ["New-Item"],
    parameters := ["ItemType"] },
  { strategy := .pipelineMembers,
    commands := ["Select-Object"],
    parameters := ["Property", "ExpandProperty", "ExcludeProperty"] },
  { strategy := .pipelineMembers,
    commands := ["Sort-Object", "Group-Object", "Measure-Object", "Where-Object"],
    parameters := ["Property"] },
  { strategy := .pipelineMembers,
    commands := ["Format-Table", "Format-List", "Format-Wide", "Format-Custom"],
    parameters := ["Property", "GroupBy"] },
  { strategy := .pipelineMembers,
    commands := ["ForEach-Object"],
    parameters := ["MemberName"] },
  { strategy := .cimNamespace,
    commands := ["Get-CimInstance", "Get-CimClass", "New-CimInstance", "Invoke-CimMethod",
      "Get-CimAssociatedInstance", "Register-CimIndicationEvent"],
    parameters := ["Namespace"] },
  { strategy := .cimClassName,
    commands := ["Get-CimInstance", "Get-CimClass", "New-CimInstance", "Invoke-CimMethod",
      "Register-CimIndicationEvent"],
    parameters := ["ClassName"] },
  { strategy := .cimMethodName,
    commands := ["Invoke-CimMethod", "Get-CimClass"],
    parameters := ["MethodName"] },
  { strategy := .cimResultClassName,
    commands := ["Get-CimAssociatedInstance"],
    parameters := ["ResultClassName"] }]

def bundled : NativeTable := ofEntries bundledEntries

end NativeTable

end TabCompletion
