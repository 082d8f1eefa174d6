import TabCompletion.Binding.Table
import TabCompletion.Proofs.Analysis.CursorInSpan
import TabCompletion.Proofs.Engine.ReplacedSpan

/-!
An editor asks for completions at its cursor and gets a span to replace. On a command line that span
holds the cursor, whatever the world, unless the token under the cursor is one of two that send the
completion elsewhere.
-/

namespace TabCompletion.Engine

open CommandLine

/-- The token of a command line that a cursor touches. -/
def tokenUnder (input : Text) (cursor : Int) : Option Token :=
  (Cursor.tokenAt? (parse input).tokens cursor).map Prod.fst

/-- The cursor stands in the span of a completion, or at one of its ends. -/
def InputCompletion.Holds (cursor : Int) (completion : InputCompletion) : Prop :=
  completion.index ≤ cursor ∧ cursor ≤ completion.index + completion.length

theorem clampCursor_inside {input : Text} {cursor : Int}
    (inside : 0 ≤ cursor ∧ cursor ≤ input.length) : (clampCursor input cursor : Int) = cursor := by
  unfold clampCursor
  omega

theorem context_settled {input : Text} {cursor : Int}
    (inside : 0 ≤ cursor ∧ cursor ≤ input.length)
    (settled : ∀ token, tokenUnder input cursor = some token → ¬Analysis.Strays cursor token)
    (request : RequestOptions) :
    Analysis.Settled input cursor (Cursor.context (Script.ofTree input (parse input).tree)
      (parse input).tokens cursor request) where
  toStarted := Analysis.context_started (parse_wellFormed input) inside request
  isHere := rfl
  starts := rfl
  empty := rfl
  settled := settled

/-- The cursor stands in the replaced span, for every command line, world, state and request, unless
the token under it sends the completion elsewhere. -/
theorem cursor_in_replaced_span (world : World) (state ended : EngineState) (input : Text)
    (cursor : Int) (request : RequestOptions) (completion : InputCompletion)
    (reads : world.parse = some fun text _ => CommandLine.parse text) (inside : 0 ≤ cursor ∧ cursor ≤ input.length)
    (settled : ∀ token, tokenUnder input cursor = some token → ¬Analysis.Strays cursor token)
    (ran : run world state (completeInput input cursor request) = (.ok completion, ended)) :
    completion.Holds cursor := by
  have place := clampCursor_inside inside
  rcases completeInput_cases ran with rfl | ⟨parse, results, final, middle, parses, analysed, rfl⟩
  · constructor <;> simp only <;> omega
  · rw [reads, Option.some.injEq] at parses
    subst parses
    rw [place] at analysed
    have covered := Analysis.route_covered world state _ (context_settled inside settled _)
      results final middle analysed
    exact ⟨covered.starts, covered.stops⟩

/-! A cursor inside a string, and cursors that are left behind. -/

section Astray

/-- How many matches a run reports, and the span. -/
def outcome (ran : Except Failure InputCompletion × EngineState) : Option (Nat × Int × Int) :=
  match ran.1 with
  | .ok completion => some (completion.results.length, completion.index, completion.length)
  | .error _ => none

theorem outcome_some {ran : Except Failure InputCompletion × EngineState} {count : Nat}
    {index length : Int} (known : outcome ran = some (count + 1, index, length)) :
    ∃ completion ended, ran = (.ok completion, ended) ∧ completion.results ≠ [] ∧
      completion.index = index ∧ completion.length = length := by
  obtain ⟨answer, ended⟩ := ran
  cases answer with
  | error failure => contradiction
  | ok completion =>
      have parts := Option.some.inj known
      rw [Prod.mk.injEq, Prod.mk.injEq] at parts
      refine ⟨completion, ended, rfl, fun none => ?_, parts.2⟩
      rw [none] at parts
      exact absurd parts.1 (Nat.succ_ne_zero count).symm

/-- A session whose every query lists one variable. -/
def variableWorld : World :=
  { session := some {
      execute := fun _ => .items [.object (.made 0) [] [("Name", .text "x.Name")]]
      readVariable := fun _ => .undefined }
    parse := some fun text _ => CommandLine.parse text, paths := noPaths }

/-- A command with a parameter that completes itself. -/
def modeWorld : World :=
  { session := some { execute := fun _ => .items [], readVariable := fun _ => .undefined }
    binder := some (CommandTable.toBinder { commands := [{ name := "Get-X", parameters :=
      [{ name := "Mode", typeName := "System.String", sets := [],
         completer := some fun _ => .items [.value "on"] }] }] })
    parse := some fun text _ => CommandLine.parse text, paths := noPaths }

set_option maxRecDepth 10000 in
theorem cursor_before_quote_in_span : ∃ completion ended,
    run variableWorld {} (completeInput "echo \"$x.Na\"" 11) = (.ok completion, ended) ∧
      completion.results ≠ [] ∧ completion.Holds 11 := by
  have known : outcome (run variableWorld {} (completeInput "echo \"$x.Na\"" 11)) =
      some (1, 6, 5) := by decide +kernel
  have settled : (tokenUnder "echo \"$x.Na\"" 11).all (fun token => ¬Analysis.Strays 11 token) =
      true := by decide +kernel
  obtain ⟨completion, ended, ran, found, -⟩ := outcome_some known
  refine ⟨completion, ended, ran, found, ?_⟩
  refine cursor_in_replaced_span _ _ _ _ _ _ _ rfl (by decide +kernel) (fun token isUnder => ?_) ran
  rw [isUnder] at settled
  exact of_decide_eq_true settled

set_option maxRecDepth 10000 in
/-- In the name of a parameter with a colon the span is behind the cursor, and behind the closing quote
of a string it is before the cursor. -/
theorem cursor_outside_span :
    (∃ completion ended, run modeWorld {} (completeInput "Get-X -Mode:" 9) = (.ok completion, ended) ∧
      completion.results ≠ [] ∧ ¬completion.Holds 9) ∧
    (∃ completion ended,
      run variableWorld {} (completeInput "echo \"$x.Na\"" 12) = (.ok completion, ended) ∧
      completion.results ≠ [] ∧ ¬completion.Holds 12) := by
  constructor
  · have known : outcome (run modeWorld {} (completeInput "Get-X -Mode:" 9)) = some (1, 12, 0) := by
      decide +kernel
    obtain ⟨completion, ended, ran, found, index, -⟩ := outcome_some known
    refine ⟨completion, ended, ran, found, fun holds => ?_⟩
    have starts := holds.1
    omega
  · have known : outcome (run variableWorld {} (completeInput "echo \"$x.Na\"" 12)) =
        some (1, 6, 5) := by decide +kernel
    obtain ⟨completion, ended, ran, found, index, length⟩ := outcome_some known
    refine ⟨completion, ended, ran, found, fun holds => ?_⟩
    have stops := holds.2
    omega

end Astray

end TabCompletion.Engine
