import TabCompletion.Completion.Analysis

/-!
How the computations of the engine run. A computation gives an answer or a failure and the state
that it leaves; a step of the analysis also carries a context.
-/

namespace TabCompletion.Engine

variable {α β : Type} (world : World) (state : EngineState)

@[simp] theorem run_pure (x : α) : run world state (pure x) = (.ok x, state) := rfl

@[simp] theorem run_throw (failure : Failure) :
    run world state (throw failure : Engine α) = (.error failure, state) := rfl

@[simp] theorem run_read : run world state (read : Engine World) = (.ok world, state) := rfl

@[simp] theorem run_get : run world state (get : Engine EngineState) = (.ok state, state) := rfl

@[simp] theorem run_set (next : EngineState) :
    run world state (set next : Engine PUnit) = (.ok ⟨⟩, next) := rfl

@[simp] theorem run_modify (change : EngineState → EngineState) :
    run world state (modify change : Engine PUnit) = (.ok ⟨⟩, change state) := rfl

/-- How a run goes on from where its first part ended. -/
def goOn (next : α → Engine β) : Except Failure α × EngineState → Except Failure β × EngineState
  | (.ok x, after) => run world after (next x)
  | (.error failure, after) => (.error failure, after)

@[simp] theorem goOn_ok (next : α → Engine β) (x : α) :
    goOn world next (.ok x, state) = run world state (next x) := rfl

@[simp] theorem goOn_error (next : α → Engine β) (failure : Failure) :
    goOn world next (.error failure, state) = (.error failure, state) := rfl

theorem run_bind (action : Engine α) (next : α → Engine β) :
    run world state (action >>= next) = goOn world next (run world state action) := by
  have opened : run world state action = action world state := rfl
  have bound : run world state (action >>= next) =
      ExceptT.bindCont (fun x => next x world) (action world state).1 (action world state).2 := rfl
  rw [opened, bound]
  rcases action world state with ⟨answer, after⟩
  cases answer <;> rfl

/-- A run that gives an answer has given one in its first part. -/
theorem run_bind_ok {world : World} {state ended : EngineState} {action : Engine α}
    {next : α → Engine β} {y : β} (ran : run world state (action >>= next) = (.ok y, ended)) :
    ∃ x middle, run world state action = (.ok x, middle) ∧
      run world middle (next x) = (.ok y, ended) := by
  rw [run_bind] at ran
  generalize run world state action = first at ran
  obtain ⟨answer, middle⟩ := first
  cases answer with
  | ok x => exact ⟨x, middle, rfl, ran⟩
  | error failure => cases ran

end TabCompletion.Engine
