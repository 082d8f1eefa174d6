import TabCompletion.Completion.Native
import TabCompletion.Proofs.Assoc

/-!
The commands that completion may run in a session. Five of them are fixed; the others are the
queries that the table of well-known commands names.
-/

namespace TabCompletion

namespace NativeTable

/-- Every strategy of a table is that of an entry. -/
def IsFrom (entries : List NativeEntry) (table : NativeTable) : Prop :=
  ∀ strategy ∈ Assoc.values table, ∃ entry ∈ entries, entry.strategy = strategy

theorem isFrom_step {entries : List NativeEntry} {entry : NativeEntry} (isEntry : entry ∈ entries)
    {table : NativeTable} (known : IsFrom entries table) (key : Text) :
    IsFrom entries (if Assoc.has table key then table else Assoc.set table key entry.strategy) := by
  split
  · exact known
  · intro strategy listed
    rcases Assoc.mem_values_set listed with isOwn | older
    · exact ⟨entry, isEntry, isOwn.symm⟩
    · exact known strategy older

theorem ofEntries_isFrom (entries : List NativeEntry) : IsFrom entries (ofEntries entries) := by
  refine List.foldlRecOn (motive := IsFrom entries) entries _ ?_ fun table known entry isEntry => ?_
  · intro strategy listed
    exact absurd listed List.not_mem_nil
  refine List.foldlRecOn (motive := IsFrom entries) entry.commands _ known
    fun table known command _ => ?_
  refine List.foldlRecOn (motive := IsFrom entries) entry.parameters _ known
    fun table known parameter _ => ?_
  exact isFrom_step isEntry known (key command parameter)

end NativeTable

/-- The query that a strategy makes. -/
def NativeStrategy.query? : NativeStrategy → Option Text
  | .sessionQuery query _ _ _ => some query
  | _ => none

namespace Completion

/-- The commands that completers run by themselves. -/
def fixedQueries : List Text :=
  ["Get-Command", "Get-Module", "Get-Variable", "Get-ChildItem", "Get-History"]

/-- The commands that completion may run. -/
def queryCommands : List Text :=
  fixedQueries ++ NativeTable.bundledEntries.filterMap (·.strategy.query?)

theorem bundled_query_mem {key query : Text} {strategy : NativeStrategy}
    (found : Assoc.get? NativeTable.bundled key = some strategy)
    (isQuery : strategy.query? = some query) : query ∈ queryCommands := by
  obtain ⟨entry, isEntry, isStrategy⟩ := NativeTable.ofEntries_isFrom NativeTable.bundledEntries _
    (Assoc.mem_values_of_get? found)
  refine List.mem_append_right _ (List.mem_filterMap.mpr ⟨entry, isEntry, ?_⟩)
  rw [isStrategy]
  exact isQuery

end Completion

end TabCompletion
