import TabCompletion.Types.Declaration

/-! Enumerables, arrays, tables, lists and sets. -/

namespace TabCompletion.Bundled

open Declaration

def collections : List TypeModel := [
  { fullName := "System.Collections.IEnumerable", kind := .interface,
    members := [
      method "GetEnumerator" [("System.Collections.IEnumerator", [])]] },
  { fullName := "System.Collections.IEnumerator", kind := .interface,
    members := [
      readOnly "Current" "System.Object",
      method "MoveNext" [("System.Boolean", [])],
      method "Reset" [("System.Void", [])]] },
  { fullName := "System.Collections.ICollection", kind := .interface,
    interfaces := some ["System.Collections.IEnumerable"],
    members := [
      readOnly "Count" "System.Int32",
      readOnly "IsSynchronized" "System.Boolean",
      readOnly "SyncRoot" "System.Object",
      method "CopyTo" [("System.Void", ["System.Array array", "System.Int32 index"])]] },
  { fullName := "System.Collections.IDictionary", kind := .interface,
    interfaces := some ["System.Collections.ICollection"],
    members := [
      readOnly "Keys" "System.Collections.ICollection",
      readOnly "Values" "System.Collections.ICollection",
      method "Add" [("System.Void", ["System.Object key", "System.Object value"])],
      method "Contains" [("System.Boolean", ["System.Object key"])],
      method "Remove" [("System.Void", ["System.Object key"])],
      method "Clear" [("System.Void", [])]] },
  { fullName := "System.IComparable", kind := .interface,
    members := [
      method "CompareTo" [("System.Int32", ["System.Object obj"])]] },
  { fullName := "System.Array", kind := .cls, baseType := some "System.Object",
    interfaces := some ["System.Collections.ICollection"],
    members := [
      readOnly "Length" "System.Int32",
      readOnly "LongLength" "System.Int64",
      readOnly "Rank" "System.Int32",
      method "Clone" [("System.Object", [])],
      method "CopyTo" [("System.Void", ["System.Array array", "System.Int32 index"])],
      method "GetValue" [("System.Object", ["System.Int32 index"])],
      method "SetValue" [("System.Void", ["System.Object value", "System.Int32 index"])],
      method "GetLength" [("System.Int32", ["System.Int32 dimension"])],
      staticMethod "IndexOf" [("System.Int32", ["System.Array array", "System.Object value"])],
      staticMethod "Sort" [("System.Void", ["System.Array array"])],
      staticMethod "Reverse" [("System.Void", ["System.Array array"])],
      staticMethod "Clear" [("System.Void", ["System.Array array", "System.Int32 index",
        "System.Int32 length"])],
      staticMethod "Resize" [("System.Void", ["T[] array", "System.Int32 newSize"])]] },
  { fullName := "System.Collections.Hashtable", kind := .cls, baseType := some "System.Object",
    interfaces := some ["System.Collections.IDictionary"],
    members := [
      readOnly "IsReadOnly" "System.Boolean",
      readOnly "IsFixedSize" "System.Boolean",
      method "ContainsKey" [("System.Boolean", ["System.Object key"])],
      method "ContainsValue" [("System.Boolean", ["System.Object value"])],
      method "Clone" [("System.Object", [])],
      staticMethod "new" [("System.Void", []), ("System.Void", ["System.Int32 capacity"])]] },
  { fullName := "System.Collections.Specialized.OrderedDictionary", kind := .cls, baseType := some "System.Object",
    interfaces := some ["System.Collections.IDictionary"],
    members := [
      readOnly "IsReadOnly" "System.Boolean",
      method "Insert" [("System.Void", ["System.Int32 index", "System.Object key",
        "System.Object value"])],
      method "RemoveAt" [("System.Void", ["System.Int32 index"])],
      method "AsReadOnly" [("System.Collections.Specialized.OrderedDictionary", [])],
      staticMethod "new" [("System.Void", [])]] },
  { fullName := "System.Collections.ArrayList", kind := .cls, baseType := some "System.Object",
    interfaces := some ["System.Collections.ICollection"],
    members := [
      property "Capacity" "System.Int32",
      method "Add" [("System.Int32", ["System.Object value"])],
      method "AddRange" [("System.Void", ["System.Collections.ICollection c"])],
      method "Remove" [("System.Void", ["System.Object obj"])],
      method "RemoveAt" [("System.Void", ["System.Int32 index"])],
      method "Insert" [("System.Void", ["System.Int32 index", "System.Object value"])],
      method "Contains" [("System.Boolean", ["System.Object item"])],
      method "IndexOf" [("System.Int32", ["System.Object value"])],
      method "Clear" [("System.Void", [])],
      method "Sort" [("System.Void", [])],
      method "Reverse" [("System.Void", [])],
      method "ToArray" [("System.Object[]", [])],
      staticMethod "new" [("System.Void", []), ("System.Void", ["System.Int32 capacity"])]] },
  { fullName := "System.Collections.Generic.List\x601", kind := .cls, baseType := some "System.Object",
    interfaces := some ["System.Collections.ICollection"],
    members := [
      property "Capacity" "System.Int32",
      method "Add" [("System.Void", ["T item"])],
      method "AddRange" [("System.Void", ["System.Collections.IEnumerable collection"])],
      method "Remove" [("System.Boolean", ["T item"])],
      method "RemoveAt" [("System.Void", ["System.Int32 index"])],
      method "RemoveAll" [("System.Int32", ["System.Predicate[T] match"])],
      method "Insert" [("System.Void", ["System.Int32 index", "T item"])],
      method "Contains" [("System.Boolean", ["T item"])],
      method "IndexOf" [("System.Int32", ["T item"])],
      method "Clear" [("System.Void", [])],
      method "Sort" [("System.Void", [])],
      method "Reverse" [("System.Void", [])],
      method "ToArray" [("T[]", [])],
      method "Find" [("T", ["System.Predicate[T] match"])],
      method "Exists" [("System.Boolean", ["System.Predicate[T] match"])],
      staticMethod "new" [("System.Void", []), ("System.Void", ["System.Int32 capacity"])]] },
  { fullName := "System.Collections.Generic.Dictionary\x602", kind := .cls, baseType := some "System.Object",
    interfaces := some ["System.Collections.IDictionary"],
    members := [
      readOnly "Comparer" "System.Collections.Generic.IEqualityComparer[TKey]",
      method "ContainsKey" [("System.Boolean", ["TKey key"])],
      method "ContainsValue" [("System.Boolean", ["TValue value"])],
      method "TryGetValue" [("System.Boolean", ["TKey key", "TValue value"])],
      method "TryAdd" [("System.Boolean", ["TKey key", "TValue value"])],
      staticMethod "new" [("System.Void", [])]] },
  { fullName := "System.Collections.Generic.HashSet\x601", kind := .cls, baseType := some "System.Object",
    interfaces := some ["System.Collections.ICollection"],
    members := [
      method "Add" [("System.Boolean", ["T item"])],
      method "Remove" [("System.Boolean", ["T item"])],
      method "Contains" [("System.Boolean", ["T item"])],
      method "UnionWith" [("System.Void", ["System.Collections.IEnumerable other"])],
      method "IntersectWith" [("System.Void", ["System.Collections.IEnumerable other"])],
      method "Clear" [("System.Void", [])],
      staticMethod "new" [("System.Void", [])]] },
  { fullName := "System.Collections.Generic.KeyValuePair\x602", kind := .struct, baseType := some "System.ValueType",
    members := [
      readOnly "Key" "TKey",
      readOnly "Value" "TValue"] }]

end TabCompletion.Bundled
