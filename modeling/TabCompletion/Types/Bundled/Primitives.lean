import TabCompletion.Types.Declaration

/-! Objects, strings, characters, numbers and truth values. -/

namespace TabCompletion.Bundled

open Declaration

def primitives : List TypeModel := [
  { fullName := "System.Object", kind := .cls,
    members := [
      method "ToString" [("System.String", [])],
      method "GetHashCode" [("System.Int32", [])],
      method "GetType" [("System.Type", [])],
      method "Equals" [("System.Boolean", ["System.Object obj"])],
      staticMethod "Equals" [("System.Boolean", ["System.Object objA", "System.Object objB"])],
      staticMethod "ReferenceEquals" [("System.Boolean", ["System.Object objA",
        "System.Object objB"])]] },
  { fullName := "System.ValueType", kind := .cls, baseType := some "System.Object" },
  { fullName := "System.Type", kind := .cls, baseType := some "System.Object",
    members := [
      readOnly "Name" "System.String",
      readOnly "FullName" "System.String",
      readOnly "Namespace" "System.String",
      readOnly "BaseType" "System.Type",
      readOnly "IsEnum" "System.Boolean",
      readOnly "IsGenericType" "System.Boolean",
      method "GetMembers" [("System.Reflection.MemberInfo[]", [])],
      method "GetMethods" [("System.Reflection.MethodInfo[]", [])],
      method "GetProperties" [("System.Reflection.PropertyInfo[]", [])],
      staticMethod "GetType" [("System.Type", ["System.String typeName"])]] },
  { fullName := "System.RuntimeType", kind := .cls, baseType := some "System.Type" },
  { fullName := "System.String", kind := .cls, baseType := some "System.Object",
    interfaces := some ["System.Collections.IEnumerable", "System.IComparable"],
    members := [
      readOnly "Length" "System.Int32",
      method "Substring" [("System.String", ["System.Int32 startIndex"]), ("System.String",
        ["System.Int32 startIndex", "System.Int32 length"])],
      method "ToUpper" [("System.String", [])],
      method "ToLower" [("System.String", [])],
      method "Trim" [("System.String", []), ("System.String", ["System.Char[] trimChars"])],
      method "TrimStart" [("System.String", [])],
      method "TrimEnd" [("System.String", [])],
      method "Split" [("System.String[]", ["System.Char[] separator"])],
      method "Replace" [("System.String", ["System.String oldValue", "System.String newValue"])],
      method "Contains" [("System.Boolean", ["System.String value"])],
      method "StartsWith" [("System.Boolean", ["System.String value"])],
      method "EndsWith" [("System.Boolean", ["System.String value"])],
      method "IndexOf" [("System.Int32", ["System.String value"])],
      method "LastIndexOf" [("System.Int32", ["System.String value"])],
      method "PadLeft" [("System.String", ["System.Int32 totalWidth"])],
      method "PadRight" [("System.String", ["System.Int32 totalWidth"])],
      method "Insert" [("System.String", ["System.Int32 startIndex", "System.String value"])],
      method "Remove" [("System.String", ["System.Int32 startIndex"])],
      method "ToCharArray" [("System.Char[]", [])],
      method "CompareTo" [("System.Int32", ["System.Object value"])],
      method "Normalize" [("System.String", [])],
      method "Clone" [("System.Object", [])],
      constant "Empty" "System.String",
      staticMethod "Join" [("System.String", ["System.String separator",
        "System.Object[] values"])],
      staticMethod "Format" [("System.String", ["System.String format", "System.Object[] args"])],
      staticMethod "IsNullOrEmpty" [("System.Boolean", ["System.String value"])],
      staticMethod "IsNullOrWhiteSpace" [("System.Boolean", ["System.String value"])],
      staticMethod "Concat" [("System.String", ["System.Object[] args"])],
      staticMethod "Compare" [("System.Int32", ["System.String strA", "System.String strB"])],
      staticMethod "new" [("System.Void", ["System.Char[] value"])]] },
  { fullName := "System.Char", kind := .struct, baseType := some "System.ValueType",
    members := [
      method "ToString" [("System.String", [])],
      staticMethod "IsDigit" [("System.Boolean", ["System.Char c"])],
      staticMethod "IsLetter" [("System.Boolean", ["System.Char c"])],
      staticMethod "IsWhiteSpace" [("System.Boolean", ["System.Char c"])],
      staticMethod "ToUpper" [("System.Char", ["System.Char c"])],
      constant "MaxValue" "System.Char",
      constant "MinValue" "System.Char"] },
  { fullName := "System.Int32", kind := .struct, baseType := some "System.ValueType",
    interfaces := some ["System.IComparable"],
    members := [
      method "CompareTo" [("System.Int32", ["System.Object value"])],
      method "ToString" [("System.String", []), ("System.String", ["System.String format"])],
      constant "MaxValue" "System.Int32",
      constant "MinValue" "System.Int32",
      staticMethod "Parse" [("System.Int32", ["System.String s"])],
      staticMethod "TryParse" [("System.Boolean", ["System.String s", "System.Int32 result"])]] },
  { fullName := "System.Int64", kind := .struct, baseType := some "System.ValueType",
    interfaces := some ["System.IComparable"],
    members := [
      method "CompareTo" [("System.Int32", ["System.Object value"])],
      method "ToString" [("System.String", []), ("System.String", ["System.String format"])],
      constant "MaxValue" "System.Int64",
      constant "MinValue" "System.Int64",
      staticMethod "Parse" [("System.Int64", ["System.String s"])],
      staticMethod "TryParse" [("System.Boolean", ["System.String s", "System.Int64 result"])]] },
  { fullName := "System.Byte", kind := .struct, baseType := some "System.ValueType",
    interfaces := some ["System.IComparable"],
    members := [
      method "CompareTo" [("System.Int32", ["System.Object value"])],
      method "ToString" [("System.String", []), ("System.String", ["System.String format"])],
      constant "MaxValue" "System.Byte",
      constant "MinValue" "System.Byte",
      staticMethod "Parse" [("System.Byte", ["System.String s"])],
      staticMethod "TryParse" [("System.Boolean", ["System.String s", "System.Byte result"])]] },
  { fullName := "System.Int16", kind := .struct, baseType := some "System.ValueType",
    interfaces := some ["System.IComparable"],
    members := [
      method "CompareTo" [("System.Int32", ["System.Object value"])],
      method "ToString" [("System.String", []), ("System.String", ["System.String format"])],
      constant "MaxValue" "System.Int16",
      constant "MinValue" "System.Int16",
      staticMethod "Parse" [("System.Int16", ["System.String s"])],
      staticMethod "TryParse" [("System.Boolean", ["System.String s", "System.Int16 result"])]] },
  { fullName := "System.UInt32", kind := .struct, baseType := some "System.ValueType",
    interfaces := some ["System.IComparable"],
    members := [
      method "CompareTo" [("System.Int32", ["System.Object value"])],
      method "ToString" [("System.String", []), ("System.String", ["System.String format"])],
      constant "MaxValue" "System.UInt32",
      constant "MinValue" "System.UInt32",
      staticMethod "Parse" [("System.UInt32", ["System.String s"])],
      staticMethod "TryParse" [("System.Boolean", ["System.String s", "System.UInt32 result"])]] },
  { fullName := "System.UInt64", kind := .struct, baseType := some "System.ValueType",
    interfaces := some ["System.IComparable"],
    members := [
      method "CompareTo" [("System.Int32", ["System.Object value"])],
      method "ToString" [("System.String", []), ("System.String", ["System.String format"])],
      constant "MaxValue" "System.UInt64",
      constant "MinValue" "System.UInt64",
      staticMethod "Parse" [("System.UInt64", ["System.String s"])],
      staticMethod "TryParse" [("System.Boolean", ["System.String s", "System.UInt64 result"])]] },
  { fullName := "System.Double", kind := .struct, baseType := some "System.ValueType",
    interfaces := some ["System.IComparable"],
    members := [
      method "CompareTo" [("System.Int32", ["System.Object value"])],
      method "ToString" [("System.String", []), ("System.String", ["System.String format"])],
      constant "MaxValue" "System.Double",
      constant "MinValue" "System.Double",
      staticMethod "Parse" [("System.Double", ["System.String s"])],
      staticMethod "TryParse" [("System.Boolean", ["System.String s", "System.Double result"])],
      constant "NaN" "System.Double",
      constant "PositiveInfinity" "System.Double",
      constant "Epsilon" "System.Double",
      staticMethod "IsNaN" [("System.Boolean", ["System.Double d"])]] },
  { fullName := "System.Single", kind := .struct, baseType := some "System.ValueType",
    interfaces := some ["System.IComparable"],
    members := [
      method "CompareTo" [("System.Int32", ["System.Object value"])],
      method "ToString" [("System.String", []), ("System.String", ["System.String format"])],
      constant "MaxValue" "System.Single",
      constant "MinValue" "System.Single",
      staticMethod "Parse" [("System.Single", ["System.String s"])],
      staticMethod "TryParse" [("System.Boolean", ["System.String s", "System.Single result"])],
      constant "NaN" "System.Single",
      constant "PositiveInfinity" "System.Single",
      constant "Epsilon" "System.Single",
      staticMethod "IsNaN" [("System.Boolean", ["System.Single d"])]] },
  { fullName := "System.Decimal", kind := .struct, baseType := some "System.ValueType",
    interfaces := some ["System.IComparable"],
    members := [
      method "CompareTo" [("System.Int32", ["System.Object value"])],
      method "ToString" [("System.String", []), ("System.String", ["System.String format"])],
      constant "MaxValue" "System.Decimal",
      constant "MinValue" "System.Decimal",
      staticMethod "Parse" [("System.Decimal", ["System.String s"])],
      staticMethod "TryParse" [("System.Boolean", ["System.String s", "System.Decimal result"])]] },
  { fullName := "System.Boolean", kind := .struct, baseType := some "System.ValueType",
    members := [
      method "CompareTo" [("System.Int32", ["System.Object obj"])],
      method "ToString" [("System.String", [])],
      constant "TrueString" "System.String",
      constant "FalseString" "System.String",
      staticMethod "Parse" [("System.Boolean", ["System.String value"])]] }]

end TabCompletion.Bundled
