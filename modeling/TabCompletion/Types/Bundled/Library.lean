import TabCompletion.Types.Declaration

/-! Text handling, enumerations, files, processes and services. -/

namespace TabCompletion.Bundled

open Declaration

def library : List TypeModel := [
  { fullName := "System.Text.StringBuilder", kind := .cls, baseType := some "System.Object",
    members := [
      property "Length" "System.Int32",
      property "Capacity" "System.Int32",
      readOnly "MaxCapacity" "System.Int32",
      method "Append" [("System.Text.StringBuilder", ["System.String value"])],
      method "AppendLine" [("System.Text.StringBuilder", []), ("System.Text.StringBuilder",
        ["System.String value"])],
      method "AppendFormat" [("System.Text.StringBuilder", ["System.String format",
        "System.Object[] args"])],
      method "Insert" [("System.Text.StringBuilder", ["System.Int32 index",
        "System.String value"])],
      method "Remove" [("System.Text.StringBuilder", ["System.Int32 startIndex",
        "System.Int32 length"])],
      method "Replace" [("System.Text.StringBuilder", ["System.String oldValue",
        "System.String newValue"])],
      method "Clear" [("System.Text.StringBuilder", [])],
      staticMethod "new" [("System.Void", []), ("System.Void", ["System.String value"])]] },
  { fullName := "System.Text.Encoding", kind := .cls, baseType := some "System.Object",
    members := [
      readOnly "EncodingName" "System.String",
      readOnly "WebName" "System.String",
      method "GetBytes" [("System.Byte[]", ["System.String s"])],
      method "GetString" [("System.String", ["System.Byte[] bytes"])],
      staticReadOnly "UTF8" "System.Text.Encoding",
      staticReadOnly "ASCII" "System.Text.Encoding",
      staticReadOnly "Unicode" "System.Text.Encoding",
      staticReadOnly "Default" "System.Text.Encoding",
      staticMethod "GetEncoding" [("System.Text.Encoding", ["System.String name"])]] },
  { fullName := "System.Text.RegularExpressions.Regex", kind := .cls, baseType := some "System.Object",
    members := [
      readOnly "Options" "System.Text.RegularExpressions.RegexOptions",
      readOnly "RightToLeft" "System.Boolean",
      method "Match" [("System.Text.RegularExpressions.Match", ["System.String input"])],
      method "Matches" [("System.Text.RegularExpressions.MatchCollection",
        ["System.String input"])],
      method "IsMatch" [("System.Boolean", ["System.String input"])],
      method "Replace" [("System.String", ["System.String input", "System.String replacement"])],
      method "Split" [("System.String[]", ["System.String input"])],
      staticMethod "Escape" [("System.String", ["System.String str"])],
      staticMethod "Unescape" [("System.String", ["System.String str"])],
      staticMethod "new" [("System.Void", ["System.String pattern"]), ("System.Void",
        ["System.String pattern", "System.Text.RegularExpressions.RegexOptions options"])]] },
  { fullName := "System.Text.RegularExpressions.Group", kind := .cls, baseType := some "System.Object",
    members := [
      readOnly "Success" "System.Boolean",
      readOnly "Value" "System.String",
      readOnly "Index" "System.Int32",
      readOnly "Length" "System.Int32",
      readOnly "Name" "System.String"] },
  { fullName := "System.Text.RegularExpressions.Match", kind := .cls, baseType := some "System.Text.RegularExpressions.Group",
    members := [
      readOnly "Groups" "System.Text.RegularExpressions.GroupCollection",
      method "NextMatch" [("System.Text.RegularExpressions.Match", [])],
      method "Result" [("System.String", ["System.String replacement"])]] },
  { fullName := "System.Text.RegularExpressions.MatchCollection", kind := .cls, baseType := some "System.Object",
    interfaces := some ["System.Collections.ICollection"] },
  { fullName := "System.Text.RegularExpressions.RegexOptions", kind := .enumeration, baseType := some "System.Enum",
    enumValues := some ["None", "IgnoreCase", "Multiline", "ExplicitCapture", "Compiled",
      "Singleline", "IgnorePatternWhitespace", "RightToLeft", "ECMAScript",
      "CultureInvariant"] },
  { fullName := "System.Enum", kind := .cls, baseType := some "System.ValueType",
    members := [
      method "HasFlag" [("System.Boolean", ["System.Enum flag"])],
      staticMethod "GetNames" [("System.String[]", ["System.Type enumType"])],
      staticMethod "GetValues" [("System.Array", ["System.Type enumType"])],
      staticMethod "Parse" [("System.Object", ["System.Type enumType", "System.String value"])]] },
  { fullName := "System.DayOfWeek", kind := .enumeration, baseType := some "System.Enum",
    enumValues := some ["Sunday", "Monday", "Tuesday", "Wednesday", "Thursday", "Friday", "Saturday"] },
  { fullName := "System.DateTimeKind", kind := .enumeration, baseType := some "System.Enum",
    enumValues := some ["Unspecified", "Utc", "Local"] },
  { fullName := "System.UriKind", kind := .enumeration, baseType := some "System.Enum",
    enumValues := some ["RelativeOrAbsolute", "Absolute", "Relative"] },
  { fullName := "System.ConsoleColor", kind := .enumeration, baseType := some "System.Enum",
    enumValues := some ["Black", "DarkBlue", "DarkGreen", "DarkCyan", "DarkRed", "DarkMagenta",
      "DarkYellow", "Gray", "DarkGray", "Blue", "Green", "Cyan", "Red",
      "Magenta", "Yellow", "White"] },
  { fullName := "System.IO.FileAttributes", kind := .enumeration, baseType := some "System.Enum",
    enumValues := some ["ReadOnly", "Hidden", "System", "Directory", "Archive", "Device", "Normal",
      "Temporary", "SparseFile", "ReparsePoint", "Compressed", "Offline",
      "NotContentIndexed", "Encrypted"] },
  { fullName := "System.IO.FileSystemInfo", kind := .cls, baseType := some "System.Object",
    members := [
      readOnly "Name" "System.String",
      readOnly "FullName" "System.String",
      readOnly "Extension" "System.String",
      readOnly "Exists" "System.Boolean",
      property "Attributes" "System.IO.FileAttributes",
      property "CreationTime" "System.DateTime",
      property "LastAccessTime" "System.DateTime",
      property "LastWriteTime" "System.DateTime",
      method "Delete" [("System.Void", [])],
      method "Refresh" [("System.Void", [])]] },
  { fullName := "System.IO.FileInfo", kind := .cls, baseType := some "System.IO.FileSystemInfo",
    members := [
      readOnly "Length" "System.Int64",
      readOnly "Directory" "System.IO.DirectoryInfo",
      readOnly "DirectoryName" "System.String",
      property "IsReadOnly" "System.Boolean",
      method "CopyTo" [("System.IO.FileInfo", ["System.String destFileName"])],
      method "MoveTo" [("System.Void", ["System.String destFileName"])],
      method "OpenRead" [("System.IO.FileStream", [])],
      method "OpenText" [("System.IO.StreamReader", [])],
      method "AppendText" [("System.IO.StreamWriter", [])],
      staticMethod "new" [("System.Void", ["System.String fileName"])]] },
  { fullName := "System.IO.DirectoryInfo", kind := .cls, baseType := some "System.IO.FileSystemInfo",
    members := [
      readOnly "Parent" "System.IO.DirectoryInfo",
      readOnly "Root" "System.IO.DirectoryInfo",
      method "GetFiles" [("System.IO.FileInfo[]", []), ("System.IO.FileInfo[]",
        ["System.String searchPattern"])],
      method "GetDirectories" [("System.IO.DirectoryInfo[]", [])],
      method "EnumerateFiles" [("System.Collections.IEnumerable", [])],
      method "Create" [("System.Void", [])],
      method "CreateSubdirectory" [("System.IO.DirectoryInfo", ["System.String path"])],
      method "MoveTo" [("System.Void", ["System.String destDirName"])],
      staticMethod "new" [("System.Void", ["System.String path"])]] },
  { fullName := "System.IO.Path", kind := .cls, baseType := some "System.Object",
    members := [
      constant "DirectorySeparatorChar" "System.Char",
      constant "PathSeparator" "System.Char",
      staticMethod "Combine" [("System.String", ["System.String path1", "System.String path2"])],
      staticMethod "GetFileName" [("System.String", ["System.String path"])],
      staticMethod "GetFileNameWithoutExtension" [("System.String", ["System.String path"])],
      staticMethod "GetExtension" [("System.String", ["System.String path"])],
      staticMethod "GetDirectoryName" [("System.String", ["System.String path"])],
      staticMethod "GetFullPath" [("System.String", ["System.String path"])],
      staticMethod "GetTempPath" [("System.String", [])],
      staticMethod "GetTempFileName" [("System.String", [])],
      staticMethod "ChangeExtension" [("System.String", ["System.String path",
        "System.String extension"])],
      staticMethod "IsPathRooted" [("System.Boolean", ["System.String path"])]] },
  { fullName := "System.IO.File", kind := .cls, baseType := some "System.Object",
    members := [
      staticMethod "Exists" [("System.Boolean", ["System.String path"])],
      staticMethod "ReadAllText" [("System.String", ["System.String path"])],
      staticMethod "ReadAllLines" [("System.String[]", ["System.String path"])],
      staticMethod "ReadAllBytes" [("System.Byte[]", ["System.String path"])],
      staticMethod "WriteAllText" [("System.Void", ["System.String path",
        "System.String contents"])],
      staticMethod "AppendAllText" [("System.Void", ["System.String path",
        "System.String contents"])],
      staticMethod "Copy" [("System.Void", ["System.String sourceFileName",
        "System.String destFileName"])],
      staticMethod "Move" [("System.Void", ["System.String sourceFileName",
        "System.String destFileName"])],
      staticMethod "Delete" [("System.Void", ["System.String path"])]] },
  { fullName := "System.IO.Directory", kind := .cls, baseType := some "System.Object",
    members := [
      staticMethod "Exists" [("System.Boolean", ["System.String path"])],
      staticMethod "GetFiles" [("System.String[]", ["System.String path"])],
      staticMethod "GetDirectories" [("System.String[]", ["System.String path"])],
      staticMethod "CreateDirectory" [("System.IO.DirectoryInfo", ["System.String path"])],
      staticMethod "Delete" [("System.Void", ["System.String path"])],
      staticMethod "GetCurrentDirectory" [("System.String", [])],
      staticMethod "SetCurrentDirectory" [("System.Void", ["System.String path"])]] },
  { fullName := "System.Diagnostics.Process", kind := .cls, baseType := some "System.Object",
    members := [
      readOnly "Id" "System.Int32",
      readOnly "ProcessName" "System.String",
      readOnly "Handle" "System.IntPtr",
      readOnly "HasExited" "System.Boolean",
      readOnly "StartTime" "System.DateTime",
      readOnly "WorkingSet64" "System.Int64",
      member .scriptProperty "Path" "System.String",
      readOnly "MainWindowTitle" "System.String",
      readOnly "Threads" "System.Diagnostics.ProcessThreadCollection",
      method "Kill" [("System.Void", [])],
      method "WaitForExit" [("System.Void", []), ("System.Boolean",
        ["System.Int32 milliseconds"])],
      method "Refresh" [("System.Void", [])],
      method "CloseMainWindow" [("System.Boolean", [])],
      staticMethod "GetProcesses" [("System.Diagnostics.Process[]", [])],
      staticMethod "GetProcessById" [("System.Diagnostics.Process", ["System.Int32 processId"])],
      staticMethod "GetProcessesByName" [("System.Diagnostics.Process[]",
        ["System.String processName"])],
      staticMethod "GetCurrentProcess" [("System.Diagnostics.Process", [])],
      staticMethod "Start" [("System.Diagnostics.Process", ["System.String fileName"])]] },
  { fullName := "System.ServiceProcess.ServiceController", kind := .cls, baseType := some "System.Object",
    members := [
      member .aliasProperty "Name" "System.String",
      property "ServiceName" "System.String",
      property "DisplayName" "System.String",
      readOnly "Status" "System.ServiceProcess.ServiceControllerStatus",
      readOnly "StartType" "System.ServiceProcess.ServiceStartMode",
      readOnly "CanStop" "System.Boolean",
      readOnly "DependentServices" "System.ServiceProcess.ServiceController[]",
      method "Start" [("System.Void", [])],
      method "Stop" [("System.Void", [])],
      method "Pause" [("System.Void", [])],
      method "Refresh" [("System.Void", [])],
      method "WaitForStatus" [("System.Void",
        ["System.ServiceProcess.ServiceControllerStatus desiredStatus"])],
      staticMethod "GetServices" [("System.ServiceProcess.ServiceController[]", [])]] },
  { fullName := "System.ServiceProcess.ServiceControllerStatus", kind := .enumeration, baseType := some "System.Enum",
    enumValues := some ["Stopped", "StartPending", "StopPending", "Running", "ContinuePending",
      "PausePending", "Paused"] },
  { fullName := "System.ServiceProcess.ServiceStartMode", kind := .enumeration, baseType := some "System.Enum",
    enumValues := some ["Boot", "System", "Automatic", "Manual", "Disabled"] }]

end TabCompletion.Bundled
