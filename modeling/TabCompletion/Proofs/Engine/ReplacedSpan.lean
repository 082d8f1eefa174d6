import TabCompletion.Proofs.Analysis.Span

/-!
Completing an input never replaces anything outside of it, for every parse whose offsets fit the
input and whose tokens and nodes agree.
-/

namespace TabCompletion.Engine

/-- The span of a completion lies in the input. -/
def InputCompletion.IsWithin (input : Text) (completion : InputCompletion) : Prop :=
  0 ≤ completion.index ∧ 0 ≤ completion.length ∧ completion.index + completion.length ≤ input.length

theorem clampCursor_le (input : Text) (cursor : Int) : clampCursor input cursor ≤ input.length := by
  unfold clampCursor
  omega

/-- A completion of an input reports the span with which the analysis ended, or the empty span at the
cursor when there is nothing to offer. -/
theorem completeInput_cases {world : World} {state ended : EngineState} {input : Text} {cursor : Int}
    {request : RequestOptions} {completion : InputCompletion}
    (ran : run world state (completeInput input cursor request) = (.ok completion, ended)) :
    completion = { results := [], index := clampCursor input cursor, length := 0 } ∨
    ∃ parse results final middle, world.parse = some parse ∧
      run world state (Analysis.results (Cursor.context
        (Script.ofTree input (parse input (clampCursor input cursor)).tree)
        (parse input (clampCursor input cursor)).tokens (clampCursor input cursor)
        { request with session := request.session.or world.session })) =
        (.ok (results, final), middle) ∧
      completion = { results, index := final.replacementIndex, length := final.replacementLength } := by
  unfold completeInput at ran
  rw [run_bind, run_read, goOn_ok] at ran
  simp only at ran
  split at ran
  · rename_i parse noObstacle parses
    obtain ⟨⟨results, final⟩, middle, analysed, rest⟩ := run_bind_ok ran
    simp only at rest
    split at rest
    · cases rest
      exact Or.inl rfl
    · cases rest
      exact Or.inr ⟨parse, results, final, _, parses, analysed, rfl⟩
  · cases ran
    exact Or.inl rfl

theorem completeInput_within {world : World} {state ended : EngineState} {input : Text} {cursor : Int}
    {request : RequestOptions} {completion : InputCompletion}
    (fits : ∀ parse, world.parse = some parse →
      (parse input (clampCursor input cursor)).WellFormed input ∧
        (parse input (clampCursor input cursor)).Aligned input)
    (ran : run world state (completeInput input cursor request) = (.ok completion, ended)) :
    completion.IsWithin input := by
  have clamped := clampCursor_le input cursor
  rcases completeInput_cases ran with rfl | ⟨parse, results, final, middle, parses, analysed, rfl⟩
  · refine ⟨?_, ?_, ?_⟩ <;> simp only <;> omega
  · obtain ⟨wellFormed, aligned⟩ := fits parse parses
    have inside : 0 ≤ (clampCursor input cursor : Int) ∧
        (clampCursor input cursor : Int) ≤ input.length := by omega
    have bounded := Analysis.route_bounded wellFormed aligned world state _
      (Analysis.context_started wellFormed inside _) results final middle analysed
    exact ⟨bounded.index, bounded.length, bounded.stop⟩

/-- The replaced span lies in the input, for every world, state, cursor and request and for every
parse that fits the input. What the command-line reader gives fits every input. -/
theorem replaced_span_within_input :
    (∀ (world : World) (state ended : EngineState) (input : Text) (cursor : Int)
      (request : RequestOptions) (completion : InputCompletion),
      (∀ parse, world.parse = some parse →
        (parse input (clampCursor input cursor)).WellFormed input ∧
          (parse input (clampCursor input cursor)).Aligned input) →
      run world state (completeInput input cursor request) = (.ok completion, ended) →
      completion.IsWithin input) ∧
    (∀ input, (CommandLine.parse input).WellFormed input ∧ (CommandLine.parse input).Aligned input) ∧
    (∀ (world : World) (state ended : EngineState) (input : Text) (cursor : Int)
      (request : RequestOptions) (completion : InputCompletion),
      world.parse = some (fun text _ => CommandLine.parse text) →
      run world state (completeInput input cursor request) = (.ok completion, ended) →
      completion.IsWithin input) := by
  have readerFits : ∀ input, (CommandLine.parse input).WellFormed input ∧
      (CommandLine.parse input).Aligned input :=
    fun input => ⟨CommandLine.parse_wellFormed input, CommandLine.parse_aligned input⟩
  refine ⟨?_, readerFits, ?_⟩
  · intro world state ended input cursor request completion fits ran
    exact completeInput_within fits ran
  · intro world state ended input cursor request completion isReader ran
    refine completeInput_within (fun parse parses => ?_) ran
    rw [isReader] at parses
    cases parses
    exact readerFits input

/-! Parses whose offsets fit although a token and a node disagree. -/

section Disagreement

/-- A session in which every variable holds an object with one property. -/
def propertySession (name : Text) : Session :=
  { execute := fun _ => .items []
    readVariable := fun _ => .object (.made 0) [] [(name, .null)] }

/-- A place without files. -/
def noPaths : PathProvider :=
  { separator := 47, currentLocation := [], home := [], isAbsolute := fun _ => false
    join := fun parent _ => parent, childItems := fun _ _ => none, shares := fun _ => none }

/-- One parse, whatever the input. -/
def worldOf (property : Text) (parse : Parse) : World :=
  { session := some (propertySession property), parse := some fun _ _ => parse, paths := noPaths }

def starInput : Text := "$a.b*"

/-- A product whose left side is a member access, with some tokens. -/
def starParse (tokens : List Token) : Parse :=
  let extent := Extent.ofSource starInput
  let access := Node.new (extent 0 4) (.member (.new (extent 0 2) (.variable "a" false))
    (.new (extent 3 4) (.stringConstant "b" .bareWord)) false)
  let missing := Node.new (extent 5 5) (.errorExpression [])
  let product := Node.new (extent 0 5) (.binary "*" access missing (extent 4 5))
  { tree := .new (extent 0 5) (.scriptBlock none [] [product]), tokens }

/-- The star as a token. -/
def starToken : Token := { kind := .multiply, text := "*", extent := .ofSource starInput 4 5 }

/-- The last letter of the name and the star as one token. -/
def wideStarToken : Token := { kind := .multiply, text := "b*", extent := .ofSource starInput 3 5 }

def colonsInput : Text := "$a::"

/-- Two colons as a word, the second of which is also the name of an assembly. -/
def colonsParse : Parse :=
  let extent := Extent.ofSource colonsInput
  let name := Node.new (extent 3 4) (.stringConstant ":" .bareWord)
  let target := Node.new (extent 0 2) (.variable "a" false)
  { tree := .new (extent 0 4)
      (.scriptBlock none [.new (extent 3 4) (.usingStatement .assembly (some name))] [target])
    tokens := [{ kind := .generic, text := "::", extent := extent 2 4 }] }

/-- The span that a run reports. -/
def reportedSpan (ran : Except Failure InputCompletion × EngineState) : Option (Int × Int) :=
  match ran.1 with
  | .ok completion => some (completion.index, completion.length)
  | .error _ => none

theorem reported {ran : Except Failure InputCompletion × EngineState} {index length : Int}
    (span : reportedSpan ran = some (index, length)) : ∃ completion ended,
    ran = (.ok completion, ended) ∧ completion.index = index ∧ completion.length = length := by
  obtain ⟨answer, ended⟩ := ran
  cases answer with
  | error failure => contradiction
  | ok completion =>
      have parts := Option.some.inj span
      rw [Prod.mk.injEq] at parts
      exact ⟨completion, ended, rfl, parts.1, parts.2⟩

set_option maxRecDepth 10000 in
theorem star_span_within : ∃ completion ended,
    run (worldOf "bb" (starParse [starToken])) {} (completeInput starInput 5) =
      (.ok completion, ended) ∧ completion.index = 3 ∧ completion.length = 2 ∧
      completion.IsWithin starInput := by
  have span : reportedSpan (run (worldOf "bb" (starParse [starToken])) {}
      (completeInput starInput 5)) = some (3, 2) := by decide +kernel
  obtain ⟨completion, ended, ran, index, length⟩ := reported span
  have fits : (starParse [starToken]).WellFormed starInput ∧
      (starParse [starToken]).Aligned starInput := by
    refine ⟨⟨?_, ?_, ?_, ?_⟩, ?_, ?_⟩ <;> decide +kernel
  refine ⟨completion, ended, ran, index, length, ?_⟩
  refine replaced_span_within_input.1 _ _ _ _ _ _ _ (fun parse parses => ?_) ran
  cases parses
  exact fits

set_option maxRecDepth 10000 in
/-- Offsets that fit are not enough. A star token that reaches into the name makes the span longer
than the rest of the input, and so does an assembly name that covers a part of the word only. -/
theorem span_outside_input_on_disagreement :
    ((starParse [starToken, wideStarToken]).WellFormed starInput ∧ ∃ completion ended,
      run (worldOf "bb" (starParse [starToken, wideStarToken])) {} (completeInput starInput 5) =
        (.ok completion, ended) ∧ ¬completion.IsWithin starInput) ∧
    (colonsParse.WellFormed colonsInput ∧ ∃ completion ended,
      run (worldOf "b" colonsParse) {} (completeInput colonsInput 4) = (.ok completion, ended) ∧
        ¬completion.IsWithin colonsInput) := by
  constructor
  · have span : reportedSpan (run (worldOf "bb" (starParse [starToken, wideStarToken])) {}
        (completeInput starInput 5)) = some (3, 3) := by decide +kernel
    obtain ⟨completion, ended, ran, index, length⟩ := reported span
    have fits : (starParse [starToken, wideStarToken]).WellFormed starInput := by
      refine ⟨?_, ?_, ?_, ?_⟩ <;> decide +kernel
    refine ⟨fits, completion, ended, ran, fun within => ?_⟩
    have size : starInput.length = 5 := by decide
    have stops := within.2.2
    omega
  · have span : reportedSpan (run (worldOf "b" colonsParse) {} (completeInput colonsInput 4)) =
        some (5, 0) := by decide +kernel
    obtain ⟨completion, ended, ran, index, length⟩ := reported span
    have fits : colonsParse.WellFormed colonsInput := by
      refine ⟨?_, ?_, ?_, ?_⟩ <;> decide +kernel
    refine ⟨fits, completion, ended, ran, fun within => ?_⟩
    have size : colonsInput.length = 4 := by decide
    have stops := within.2.2
    omega

end Disagreement

end TabCompletion.Engine
