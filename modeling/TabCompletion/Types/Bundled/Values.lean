import TabCompletion.Types.Declaration

/-! Dates, identifiers, versions, addresses, mathematics and the process environment. -/

namespace TabCompletion.Bundled

open Declaration

def values : List TypeModel := [
  { fullName := "System.DateTime", kind := .struct, baseType := some "System.ValueType",
    members := [
      readOnly "Year" "System.Int32",
      readOnly "Month" "System.Int32",
      readOnly "Day" "System.Int32",
      readOnly "Hour" "System.Int32",
      readOnly "Minute" "System.Int32",
      readOnly "Second" "System.Int32",
      readOnly "DayOfWeek" "System.DayOfWeek",
      readOnly "DayOfYear" "System.Int32",
      readOnly "Date" "System.DateTime",
      readOnly "Ticks" "System.Int64",
      readOnly "Kind" "System.DateTimeKind",
      method "AddDays" [("System.DateTime", ["System.Double value"])],
      method "AddHours" [("System.DateTime", ["System.Double value"])],
      method "AddMinutes" [("System.DateTime", ["System.Double value"])],
      method "AddSeconds" [("System.DateTime", ["System.Double value"])],
      method "AddMonths" [("System.DateTime", ["System.Int32 months"])],
      method "AddYears" [("System.DateTime", ["System.Int32 value"])],
      method "Subtract" [("System.TimeSpan", ["System.DateTime value"])],
      method "ToString" [("System.String", []), ("System.String", ["System.String format"])],
      method "ToUniversalTime" [("System.DateTime", [])],
      method "ToLocalTime" [("System.DateTime", [])],
      method "ToShortDateString" [("System.String", [])],
      method "ToLongDateString" [("System.String", [])],
      staticReadOnly "Now" "System.DateTime",
      staticReadOnly "Today" "System.DateTime",
      staticReadOnly "UtcNow" "System.DateTime",
      constant "MaxValue" "System.DateTime",
      constant "MinValue" "System.DateTime",
      staticMethod "Parse" [("System.DateTime", ["System.String s"])],
      staticMethod "DaysInMonth" [("System.Int32", ["System.Int32 year", "System.Int32 month"])],
      staticMethod "IsLeapYear" [("System.Boolean", ["System.Int32 year"])],
      staticMethod "new" [("System.Void", ["System.Int64 ticks"]), ("System.Void",
        ["System.Int32 year", "System.Int32 month", "System.Int32 day"])]] },
  { fullName := "System.TimeSpan", kind := .struct, baseType := some "System.ValueType",
    members := [
      readOnly "Days" "System.Int32",
      readOnly "Hours" "System.Int32",
      readOnly "Minutes" "System.Int32",
      readOnly "Seconds" "System.Int32",
      readOnly "Milliseconds" "System.Int32",
      readOnly "TotalDays" "System.Double",
      readOnly "TotalHours" "System.Double",
      readOnly "TotalMinutes" "System.Double",
      readOnly "TotalSeconds" "System.Double",
      readOnly "TotalMilliseconds" "System.Double",
      readOnly "Ticks" "System.Int64",
      method "Add" [("System.TimeSpan", ["System.TimeSpan ts"])],
      method "Negate" [("System.TimeSpan", [])],
      constant "Zero" "System.TimeSpan",
      staticMethod "FromDays" [("System.TimeSpan", ["System.Double value"])],
      staticMethod "FromHours" [("System.TimeSpan", ["System.Double value"])],
      staticMethod "FromMinutes" [("System.TimeSpan", ["System.Double value"])],
      staticMethod "FromSeconds" [("System.TimeSpan", ["System.Double value"])],
      staticMethod "Parse" [("System.TimeSpan", ["System.String s"])],
      staticMethod "new" [("System.Void", ["System.Int64 ticks"]), ("System.Void",
        ["System.Int32 hours", "System.Int32 minutes", "System.Int32 seconds"])]] },
  { fullName := "System.Guid", kind := .struct, baseType := some "System.ValueType",
    members := [
      method "ToByteArray" [("System.Byte[]", [])],
      method "ToString" [("System.String", []), ("System.String", ["System.String format"])],
      constant "Empty" "System.Guid",
      staticMethod "NewGuid" [("System.Guid", [])],
      staticMethod "Parse" [("System.Guid", ["System.String input"])],
      staticMethod "new" [("System.Void", ["System.String g"])]] },
  { fullName := "System.Version", kind := .cls, baseType := some "System.Object",
    members := [
      readOnly "Major" "System.Int32",
      readOnly "Minor" "System.Int32",
      readOnly "Build" "System.Int32",
      readOnly "Revision" "System.Int32",
      method "CompareTo" [("System.Int32", ["System.Version value"])],
      staticMethod "Parse" [("System.Version", ["System.String input"])],
      staticMethod "new" [("System.Void", []), ("System.Void", ["System.String version"]),
        ("System.Void", ["System.Int32 major", "System.Int32 minor"])]] },
  { fullName := "System.Uri", kind := .cls, baseType := some "System.Object",
    members := [
      readOnly "AbsoluteUri" "System.String",
      readOnly "AbsolutePath" "System.String",
      readOnly "Host" "System.String",
      readOnly "Port" "System.Int32",
      readOnly "Scheme" "System.String",
      readOnly "Query" "System.String",
      readOnly "Fragment" "System.String",
      readOnly "Segments" "System.String[]",
      readOnly "IsAbsoluteUri" "System.Boolean",
      staticMethod "EscapeDataString" [("System.String", ["System.String stringToEscape"])],
      staticMethod "UnescapeDataString" [("System.String", ["System.String stringToUnescape"])],
      staticMethod "TryCreate" [("System.Boolean", ["System.String uriString",
        "System.UriKind uriKind", "System.Uri result"])],
      staticMethod "new" [("System.Void", ["System.String uriString"])]] },
  { fullName := "System.Math", kind := .cls, baseType := some "System.Object",
    members := [
      constant "PI" "System.Double",
      constant "E" "System.Double",
      staticMethod "Abs" [("System.Double", ["System.Double value"])],
      staticMethod "Max" [("System.Double", ["System.Double val1", "System.Double val2"])],
      staticMethod "Min" [("System.Double", ["System.Double val1", "System.Double val2"])],
      staticMethod "Round" [("System.Double", ["System.Double a"]), ("System.Double",
        ["System.Double value", "System.Int32 digits"])],
      staticMethod "Floor" [("System.Double", ["System.Double d"])],
      staticMethod "Ceiling" [("System.Double", ["System.Double a"])],
      staticMethod "Sqrt" [("System.Double", ["System.Double d"])],
      staticMethod "Pow" [("System.Double", ["System.Double x", "System.Double y"])],
      staticMethod "Truncate" [("System.Double", ["System.Double d"])],
      staticMethod "Log" [("System.Double", ["System.Double d"])],
      staticMethod "Log10" [("System.Double", ["System.Double d"])]] },
  { fullName := "System.Environment", kind := .cls, baseType := some "System.Object",
    members := [
      staticReadOnly "MachineName" "System.String",
      staticReadOnly "UserName" "System.String",
      staticReadOnly "NewLine" "System.String",
      staticReadOnly "OSVersion" "System.OperatingSystem",
      staticReadOnly "ProcessorCount" "System.Int32",
      staticProperty "CurrentDirectory" "System.String",
      staticReadOnly "Is64BitProcess" "System.Boolean",
      staticMethod "GetEnvironmentVariable" [("System.String", ["System.String variable"])],
      staticMethod "SetEnvironmentVariable" [("System.Void", ["System.String variable",
        "System.String value"])],
      staticMethod "GetEnvironmentVariables" [("System.Collections.IDictionary", [])],
      staticMethod "GetFolderPath" [("System.String",
        ["System.Environment+SpecialFolder folder"])],
      staticMethod "Exit" [("System.Void", ["System.Int32 exitCode"])]] },
  { fullName := "System.Console", kind := .cls, baseType := some "System.Object",
    members := [
      staticProperty "Title" "System.String",
      staticProperty "ForegroundColor" "System.ConsoleColor",
      staticProperty "BackgroundColor" "System.ConsoleColor",
      staticProperty "WindowWidth" "System.Int32",
      staticProperty "CursorVisible" "System.Boolean",
      staticMethod "WriteLine" [("System.Void", []), ("System.Void", ["System.String value"])],
      staticMethod "Write" [("System.Void", ["System.String value"])],
      staticMethod "ReadLine" [("System.String", [])],
      staticMethod "ReadKey" [("System.ConsoleKeyInfo", []), ("System.ConsoleKeyInfo",
        ["System.Boolean intercept"])],
      staticMethod "Clear" [("System.Void", [])],
      staticMethod "Beep" [("System.Void", [])]] }]

end TabCompletion.Bundled
