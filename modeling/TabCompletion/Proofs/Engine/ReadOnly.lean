import TabCompletion.Paths.Memory
import TabCompletion.Proofs.Engine.Beside

/-!
Completion runs nothing but a fixed set of read-only commands. That only such queries were added is
carried from the first step of a call to its last, whatever it ends with.
-/

namespace TabCompletion.Engine

open Completion

/-! Queries that were added. -/

/-- To the queries of `base` only such were added as completion may make. -/
def Asked (base : List Query) : List Query → Prop := Added (fun q => q.command ∈ queryCommands) base

theorem asked_carried (registry : Registry) (session : Option Session) (base : List Query) :
    Carried registry session (Asked base) fun _ => Asked base where
  answered := fun asked allowed _ => Added.add asked allowed
  broken := fun asked allowed _ => Added.add asked allowed
  refused := fun asked _ => asked
  endless := fun _ asked _ => asked

theorem perform_asked (world : World) (state : EngineState) (call : Call) :
    Asked state.queries (run world state call.perform).2.queries := by
  have ended := perform_carried world state call (asked_carried _ _ state.queries) (added_self _ _)
  generalize run world state call.perform = ran at ended ⊢
  obtain ⟨answer, after⟩ := ran
  cases answer with
  | ok _ => exact ended
  | error failure => exact ended

theorem performAll_asked (state : EngineState) (calls : List (World × Call)) :
    Asked state.queries (Call.performAll state calls).queries := by
  -- The induction is on the calls; each one adds to the queries of those before it.
  induction calls generalizing state with
  | nil => exact added_self _ _
  | cons first rest ih => exact Added.trans (perform_asked first.1 state first.2) (ih _)

/-- Completion never runs what was typed. Whatever calls are made in whatever worlds, the queries
that they add run commands of the fixed set; a call without a live session makes none. -/
theorem queries_are_read_only :
    (∀ (state : EngineState) (calls : List (World × Call)), ∃ asked,
      (Call.performAll state calls).queries = state.queries ++ asked ∧
      ∀ q ∈ asked, q.command ∈ fixedQueries ∨
        ∃ entry ∈ NativeTable.bundledEntries, entry.strategy.query? = some q.command) ∧
    (∀ (world : World) (state : EngineState) (call : Call),
      (call.session? world).any (·.isAvailable) = false →
      (run world state call.perform).2.queries = state.queries) := by
  constructor
  · intro state calls
    obtain ⟨asked, same, known⟩ := performAll_asked state calls
    refine ⟨asked, same, fun q listed => ?_⟩
    -- The commands are the fixed ones followed by the queries of the table.
    rcases List.mem_append.mp (known q listed) with isFixed | isNative
    · exact Or.inl isFixed
    · exact Or.inr (List.mem_filterMap.mp isNative)
  · intro world state call unavailable
    rw [perform_unavailable world state call unavailable]

/-- A world whose session has ended. -/
def endedWorld : World :=
  { session := some
      { isAvailable := false, execute := fun _ => .items [], readVariable := fun _ => .undefined }
    paths := MemoryPaths.provider [] "/" "/" [] }

theorem ended_session_asks_nothing :
    (run endedWorld {} (Call.perform (.ofWord (.commandName "Get" none [])))).2.queries = [] :=
  queries_are_read_only.2 endedWorld {} (.ofWord (.commandName "Get" none [])) rfl

end TabCompletion.Engine
