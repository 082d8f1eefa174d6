import TabCompletion.Proofs.Engine.Run

/-!
What a step of the analysis ensures about its answer and about the context that it leaves, in every
world and from every state of the engine. Only steps change a context; a completion that runs inside
a step leaves it as it is.
-/

namespace TabCompletion.Analysis

variable {α β : Type} {before : Context → Prop} {after : α → Context → Prop}

/-- From a context with `before`, a step that answers leaves an answer and a context with
`after`. -/
def Ensures (before : Context → Prop) (step : Step α) (after : α → Context → Prop) : Prop :=
  ∀ (world : World) (state : EngineState) (c : Context), before c →
    ∀ answer final ended, Engine.run world state (step.run c) = (.ok (answer, final), ended) →
      after answer final

theorem ensures_pure {answer : α} (holds : ∀ c, before c → after answer c) :
    Ensures before (pure answer : Step α) after := by
  intro world state c start x final ended ran
  cases ran
  exact holds c start

theorem ensures_bind (between : β → Context → Prop) {first : Step β} {next : β → Step α}
    (starts : Ensures before first between) (goesOn : ∀ x, Ensures (between x) (next x) after) :
    Ensures before (first >>= next) after := by
  intro world state c start x final ended ran
  rw [StateT.run_bind] at ran
  obtain ⟨answer, middle, half, rest⟩ := Engine.run_bind_ok ran
  exact goesOn answer.1 world middle answer.2
    (starts world state c start answer.1 answer.2 middle half) x final ended rest

theorem ensures_mono {step : Step α} {weaker : Context → Prop} {stronger : α → Context → Prop}
    (ensured : Ensures weaker step stronger) (starts : ∀ c, before c → weaker c)
    (ends : ∀ x c, stronger x c → after x c) : Ensures before step after := by
  intro world state c start x final ended ran
  exact ends x final (ensured world state c (starts c start) x final ended ran)

/-- What holds of every context with `before` holds of one such context. -/
theorem ensures_from {step : Step α} {c : Context} (start : before c)
    (ensured : Ensures before step after) : Ensures (fun d => d = c) step after :=
  ensures_mono ensured (fun _ same => same ▸ start) fun _ _ holds => holds

theorem ensures_done {answer : α} {c : Context} (holds : after answer c) :
    Ensures (fun d => d = c) (pure answer : Step α) after :=
  ensures_pure fun _ same => same ▸ holds

theorem ensures_ite {condition : Prop} [Decidable condition] {yes no : Step α}
    (holds : condition → Ensures before yes after) (fails : ¬condition → Ensures before no after) :
    Ensures before (if condition then yes else no) after := by
  split
  · exact holds ‹_›
  · exact fails ‹_›

/-- Reading the context fixes it for what follows. -/
theorem ensures_get {next : Context → Step α}
    (goesOn : ∀ c, before c → Ensures (fun d => d = c) (next c) after) :
    Ensures before (get >>= next) after := by
  intro world state c start x final ended ran
  exact goesOn c start world state c rfl x final ended ran

theorem ensures_modify {change : Context → Context} {after : PUnit → Context → Prop}
    (holds : ∀ c, before c → after ⟨⟩ (change c)) :
    Ensures before (modify change : Step PUnit) after := by
  intro world state c start x final ended ran
  cases ran
  exact holds c start

/-- A completion leaves the context alone. -/
theorem ensures_lift {action : Engine α} (holds : ∀ x c, before c → after x c) :
    Ensures before (liftM action : Step α) after := by
  intro world state c start x final ended ran
  change Engine.run world state (action >>= fun x => pure (x, c)) = _ at ran
  obtain ⟨answer, middle, -, rest⟩ := Engine.run_bind_ok ran
  cases rest
  exact holds _ c start

theorem ensures_read : Ensures before (read : Step World) (fun _ => before) := by
  intro world state c start x final ended ran
  cases ran
  exact start

/-! The parts that routes are made of. -/

theorem setWord_ensures {after : PUnit → Context → Prop} {word : Text}
    (holds : ∀ c, before c → after ⟨⟩ { c with word }) : Ensures before (setWord word) after :=
  ensures_modify holds

theorem setSpan_ensures {after : PUnit → Context → Prop} {index length : Int}
    (holds : ∀ c, before c →
      after ⟨⟩ { c with replacementIndex := index, replacementLength := length }) :
    Ensures before (setSpan index length) after :=
  ensures_modify holds

theorem setExtent_ensures {after : PUnit → Context → Prop} {e : Extent}
    (holds : ∀ c, before c → after ⟨⟩ { c with
      replacementIndex := e.start, replacementLength := (e.stop : Int) - e.start }) :
    Ensures before (setExtent e) after :=
  ensures_modify holds

theorem skipSpan_ensures {after : PUnit → Context → Prop} {units : Int}
    (holds : ∀ c, before c → after ⟨⟩ { c with
      replacementIndex := c.replacementIndex + units, replacementLength := 0 }) :
    Ensures before (skipSpan units) after :=
  ensures_modify holds

theorem extendFrom_ensures {after : PUnit → Context → Prop} {e : Extent}
    (holds : ∀ c, before c → after ⟨⟩ { c with
      replacementIndex := e.start
      replacementLength := c.replacementLength + ((e.stop : Int) - e.start) }) :
    Ensures before (extendFrom e) after :=
  ensures_modify holds

/-- A completion may answer anything and keeps what held before. -/
theorem complete_ensures {completion : Context → Engine (List Result)} :
    Ensures before (complete completion) (fun _ => before) := by
  apply ensures_get
  intro c start
  exact ensures_from start (ensures_lift fun _ _ kept => kept)

theorem completeWord_ensures {after : Context → Prop} {word : Text}
    {completion : Context → Engine (List Result)}
    (holds : ∀ c, before c → after { c with word }) :
    Ensures before (completeWord word completion) (fun _ => after) :=
  ensures_bind _ (setWord_ensures holds) fun _ => complete_ensures

theorem orElse_ensures {after between : List Result → Context → Prop}
    {first second : Step (List Result)} (tries : Ensures before first between)
    (found : ∀ results c, between results c → after results c)
    (fallsBack : Ensures (between []) second after) :
    Ensures before (orElse first second) after := by
  unfold orElse
  refine ensures_bind _ tries fun results => ?_
  split
  · rename_i empty
    rw [List.isEmpty_iff.mp empty]
    exact fallsBack
  · exact ensures_pure (found results)

theorem filesAsCommand_ensures : Ensures before filesAsCommand (fun _ => before) := by
  apply ensures_get
  intro c start
  refine ensures_from start ?_
  exact ensures_bind _ (ensures_lift fun _ _ kept => kept) fun _ => ensures_pure fun _ kept => kept

theorem commandNames_ensures : Ensures before commandNames (fun _ => before) := by
  apply ensures_get
  intro c start
  exact ensures_from start (ensures_lift fun _ _ kept => kept)

theorem filesAndCommands_ensures : Ensures before filesAndCommands (fun _ => before) := by
  unfold filesAndCommands
  refine ensures_bind _ filesAsCommand_ensures fun files => ?_
  exact ensures_bind _ commandNames_ensures fun _ => ensures_pure fun _ kept => kept

end TabCompletion.Analysis
