import TabCompletion.Types.Declaration

/-! Types of the shell itself and of its attributes. -/

namespace TabCompletion.Bundled

open Declaration

def automation : List TypeModel := [
  { fullName := "System.Management.Automation.PSObject", kind := .cls, baseType := some "System.Object",
    members := [
      readOnly "BaseObject" "System.Object",
      readOnly "Members" "System.Management.Automation.PSMemberInfoCollection",
      readOnly "Properties" "System.Management.Automation.PSMemberInfoCollection",
      readOnly "Methods" "System.Management.Automation.PSMemberInfoCollection",
      readOnly "TypeNames" "System.Collections.ObjectModel.Collection[string]",
      method "Copy" [("System.Management.Automation.PSObject", [])]] },
  { fullName := "System.Management.Automation.PSCustomObject", kind := .cls, baseType := some "System.Object" },
  { fullName := "System.Management.Automation.ScriptBlock", kind := .cls, baseType := some "System.Object",
    members := [
      readOnly "Ast" "System.Management.Automation.Language.Ast",
      readOnly "File" "System.String",
      readOnly "Module" "System.Management.Automation.PSModuleInfo",
      readOnly "StartPosition" "System.Management.Automation.PSToken",
      method "Invoke" [("System.Collections.ObjectModel.Collection[psobject]",
        ["System.Object[] args"])],
      method "InvokeReturnAsIs" [("System.Object", ["System.Object[] args"])],
      method "GetNewClosure" [("System.Management.Automation.ScriptBlock", [])],
      staticMethod "Create" [("System.Management.Automation.ScriptBlock",
        ["System.String script"])]] },
  { fullName := "System.Management.Automation.SwitchParameter", kind := .struct, baseType := some "System.ValueType",
    members := [
      readOnly "IsPresent" "System.Boolean",
      method "ToBool" [("System.Boolean", [])],
      staticReadOnly "Present" "System.Management.Automation.SwitchParameter"] },
  { fullName := "System.Management.Automation.ActionPreference", kind := .enumeration, baseType := some "System.Enum",
    enumValues := some ["SilentlyContinue", "Stop", "Continue", "Inquire", "Ignore", "Suspend",
      "Break"] },
  { fullName := "System.Management.Automation.ConfirmImpact", kind := .enumeration, baseType := some "System.Enum",
    enumValues := some ["None", "Low", "Medium", "High"] },
  { fullName := "System.Management.Automation.RemotingCapability", kind := .enumeration, baseType := some "System.Enum",
    enumValues := some ["None", "PowerShell", "SupportedByCommand", "OwnedByCommand"] },
  { fullName := "System.Management.Automation.PSModuleInfo", kind := .cls, baseType := some "System.Object",
    members := [
      readOnly "Name" "System.String",
      readOnly "Path" "System.String",
      readOnly "Version" "System.Version",
      readOnly "ModuleType" "System.Management.Automation.ModuleType",
      
        readOnly "ExportedCommands" "System.Collections.Generic.Dictionary[string,System.Management.Automation.CommandInfo]",
      property "Description" "System.String"] },
  { fullName := "System.Management.Automation.ModuleType", kind := .enumeration, baseType := some "System.Enum",
    enumValues := some ["Script", "Binary", "Manifest", "Cim", "Workflow"] },
  { fullName := "System.Management.Automation.ParameterAttribute", kind := .attribute, baseType := some "System.Attribute",
    members := [
      property "Position" "System.Int32",
      property "ParameterSetName" "System.String",
      property "Mandatory" "System.Boolean",
      property "ValueFromPipeline" "System.Boolean",
      property "ValueFromPipelineByPropertyName" "System.Boolean",
      property "ValueFromRemainingArguments" "System.Boolean",
      property "HelpMessage" "System.String",
      property "HelpMessageBaseName" "System.String",
      property "HelpMessageResourceId" "System.String",
      property "DontShow" "System.Boolean",
      readOnly "TypeId" "System.Object"] },
  { fullName := "System.Management.Automation.CmdletBindingAttribute", kind := .attribute, baseType := some "System.Attribute",
    members := [
      property "DefaultParameterSetName" "System.String",
      property "SupportsShouldProcess" "System.Boolean",
      property "SupportsPaging" "System.Boolean",
      property "SupportsTransactions" "System.Boolean",
      property "ConfirmImpact" "System.Management.Automation.ConfirmImpact",
      property "HelpUri" "System.String",
      property "PositionalBinding" "System.Boolean",
      property "RemotingCapability" "System.Management.Automation.RemotingCapability",
      readOnly "TypeId" "System.Object"] },
  { fullName := "System.Management.Automation.OutputTypeAttribute", kind := .attribute, baseType := some "System.Attribute",
    members := [
      readOnly "Type" "System.Management.Automation.PSTypeName[]",
      property "ParameterSetName" "System.String[]",
      property "ProviderCmdlet" "System.String",
      readOnly "TypeId" "System.Object"] },
  { fullName := "System.Management.Automation.AliasAttribute", kind := .attribute, baseType := some "System.Attribute",
    members := [
      readOnly "AliasNames" "System.Collections.Generic.IList[string]",
      readOnly "TypeId" "System.Object"] },
  { fullName := "System.Management.Automation.ValidateSetAttribute", kind := .attribute, baseType := some "System.Attribute",
    members := [
      readOnly "ValidValues" "System.Collections.Generic.IList[string]",
      property "IgnoreCase" "System.Boolean",
      property "ErrorMessage" "System.String",
      readOnly "TypeId" "System.Object"] },
  { fullName := "System.Management.Automation.ValidateNotNullOrEmptyAttribute", kind := .attribute, baseType := some "System.Attribute",
    members := [
      readOnly "TypeId" "System.Object"] },
  { fullName := "System.Management.Automation.ValidateRangeAttribute", kind := .attribute, baseType := some "System.Attribute",
    members := [
      readOnly "MinRange" "System.Object",
      readOnly "MaxRange" "System.Object",
      property "ErrorMessage" "System.String",
      readOnly "TypeId" "System.Object"] },
  { fullName := "System.Management.Automation.ValidatePatternAttribute", kind := .attribute, baseType := some "System.Attribute",
    members := [
      readOnly "RegexPattern" "System.String",
      property "Options" "System.Text.RegularExpressions.RegexOptions",
      property "ErrorMessage" "System.String",
      readOnly "TypeId" "System.Object"] },
  { fullName := "System.Management.Automation.ArgumentCompleterAttribute", kind := .attribute, baseType := some "System.Attribute",
    members := [
      readOnly "ScriptBlock" "System.Management.Automation.ScriptBlock",
      readOnly "Type" "System.Type",
      readOnly "TypeId" "System.Object"] },
  { fullName := "System.Attribute", kind := .cls, baseType := some "System.Object",
    members := [
      readOnly "TypeId" "System.Object",
      method "IsDefaultAttribute" [("System.Boolean", [])],
      method "Match" [("System.Boolean", ["System.Object obj"])]] },
  { fullName := "System.Management.Automation.PSCredential", kind := .cls, baseType := some "System.Object",
    members := [
      readOnly "UserName" "System.String",
      readOnly "Password" "System.Security.SecureString",
      method "GetNetworkCredential" [("System.Net.NetworkCredential", [])],
      staticReadOnly "Empty" "System.Management.Automation.PSCredential"] },
  { fullName := "Microsoft.Management.Infrastructure.CimInstance", kind := .cls, baseType := some "System.Object",
    members := [
      readOnly "CimClass" "Microsoft.Management.Infrastructure.CimClass",
      
        readOnly "CimInstanceProperties" "Microsoft.Management.Infrastructure.Generic.CimKeyedCollection[Microsoft.Management.Infrastructure.CimProperty]",
      readOnly "CimSystemProperties" "Microsoft.Management.Infrastructure.CimSystemProperties",
      method "Dispose" [("System.Void", [])],
      method "GetCimSessionComputerName" [("System.String", [])],
      method "GetCimSessionInstanceId" [("System.Guid", [])]] },
  { fullName := "System.Collections.Generic.Comparer\x601", kind := .cls, baseType := some "System.Object", isPublic := some true,
    members := [
      method "Compare" [("System.Int32", ["T x", "T y"])],
      staticReadOnly "Default" "System.Collections.Generic.Comparer[T]"] },
  { fullName := "System.Environment+SpecialFolder", kind := .enumeration, baseType := some "System.Enum", isNested := some true,
    enumValues := some ["Desktop", "MyDocuments", "ApplicationData", "LocalApplicationData",
      "ProgramFiles", "System", "UserProfile", "CommonApplicationData"] },
  { fullName := "System.Reflection.Internal.HiddenHelper", kind := .cls, isPublic := some false }]

end TabCompletion.Bundled
