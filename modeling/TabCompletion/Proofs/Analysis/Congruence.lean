import TabCompletion.Engine.Complete
import TabCompletion.Proofs.Completion.ValueCongruence

/-!
The analysis of a cursor agrees in two worlds of concord: from corresponding contexts every route
gives equal results and leaves corresponding contexts.
-/

namespace TabCompletion

namespace Context.Corresponds

variable {p : Pairing} {c d : Context} (corresponds : c.Corresponds p d)

include corresponds

theorem withWord (word : Text) : Corresponds p { c with word } { d with word } := by
  obtain ⟨binding, completers, session, sameBinding, sameCompleters, sameSession⟩ := corresponds
  exact .intro binding completers session sameBinding sameCompleters sameSession

theorem withSpan (index length : Int) :
    Corresponds p { c with replacementIndex := index, replacementLength := length }
      { d with replacementIndex := index, replacementLength := length } := by
  obtain ⟨binding, completers, session, sameBinding, sameCompleters, sameSession⟩ := corresponds
  exact .intro binding completers session sameBinding sameCompleters sameSession

theorem withRelated (related : List Node) :
    Corresponds p { c with related } { d with related } := by
  obtain ⟨binding, completers, session, sameBinding, sameCompleters, sameSession⟩ := corresponds
  exact .intro binding completers session sameBinding sameCompleters sameSession

end Context.Corresponds

namespace Analysis

variable {α β γ : Type} {p : Pairing} {before between after kept : StateRelation}

/-- What steps from corresponding contexts give: equal answers and corresponding contexts. -/
def Stepped (p : Pairing) (x y : α × Context) : Prop := x.1 = y.1 ∧ x.2.Corresponds p y.2

/-- Two steps are alike from all corresponding contexts. -/
def StepsAlike (p : Pairing) (before after : StateRelation) (a b : Step α) : Prop :=
  ∀ c d : Context, c.Corresponds p d → Alike p before after (Stepped p) (a.run c) (b.run d)

theorem steps_pure (weaker : ∀ s t, before s t → after s t) (x : α) :
    StepsAlike p before after (pure x : Step α) (pure x) := by
  intro c d corresponds
  exact alike_pure ⟨rfl, corresponds⟩ weaker

theorem steps_done (x : α) : StepsAlike p kept kept (pure x : Step α) (pure x) :=
  steps_pure (fun _ _ states => states) x

theorem steps_bind (between : StateRelation) {a b : Step β} {f g : β → Step α}
    (first : StepsAlike p before between a b)
    (next : ∀ x, StepsAlike p between after (f x) (g x)) :
    StepsAlike p before after (a >>= f) (b >>= g) := by
  intro c d corresponds
  rw [StateT.run_bind, StateT.run_bind]
  refine alike_bind between (first c d corresponds) ?_
  rintro ⟨x, c'⟩ ⟨_, d'⟩ ⟨rfl, corresponds'⟩
  exact next x c' d' corresponds'

theorem steps_mono {a b : Step α} (alike : StepsAlike p before between a b)
    (weaker : ∀ s t, between s t → after s t) : StepsAlike p before after a b := by
  intro c d corresponds
  exact alike_mono (alike c d corresponds) (fun _ _ states => states) weaker

/-- Both sides read their own context. -/
theorem steps_get {f g : Context → Step α}
    (next : ∀ c d : Context, c.Corresponds p d → StepsAlike p before after (f c) (g d)) :
    StepsAlike p before after (get >>= f) (get >>= g) := by
  intro c d corresponds
  exact next c d corresponds c d corresponds

theorem steps_read {f g : World → Step α} (next : StepsAlike p before after (f p.left) (g p.right)) :
    StepsAlike p before after (read >>= f) (read >>= g) := by
  intro c d corresponds
  exact next c d corresponds

theorem steps_modify {f g : Context → Context}
    (same : ∀ c d : Context, c.Corresponds p d → (f c).Corresponds p (g d)) :
    StepsAlike p kept kept (modify f : Step PUnit) (modify g) := by
  intro c d corresponds
  exact alike_pure ⟨rfl, same c d corresponds⟩ fun _ _ states => states

/-- A completion leaves the context alone. -/
theorem steps_lift {a b : Engine α} (alike : Alike p before after Eq a b) :
    StepsAlike p before after (liftM a : Step α) (liftM b) := by
  intro c d corresponds
  refine alike_bind (f := fun x => pure (x, c)) (g := fun x => pure (x, d)) after alike ?_
  rintro x _ rfl
  exact alike_pure ⟨rfl, corresponds⟩ fun _ _ states => states

/-- A completion whose answers are related, and what follows from related answers. -/
theorem steps_bindLift (between : StateRelation) {links : β → γ → Prop} {a : Engine β} {b : Engine γ}
    {f : β → Step α} {g : γ → Step α} (first : Alike p before between links a b)
    (next : ∀ x y, links x y → StepsAlike p between after (f x) (g y)) :
    StepsAlike p before after (liftM a >>= f) (liftM b >>= g) := by
  intro c d corresponds
  rw [StateT.run_bind, StateT.run_bind]
  have lifted : Alike p before between (fun x y => links x.1 y.1 ∧ x.2 = c ∧ y.2 = d)
      ((liftM a : Step β).run c) ((liftM b : Step γ).run d) := by
    refine alike_bind (f := fun x => pure (x, c)) (g := fun y => pure (y, d)) between first ?_
    intro x y linked
    exact alike_pure ⟨linked, rfl, rfl⟩ fun _ _ states => states
  refine alike_bind between lifted ?_
  rintro ⟨x, _⟩ ⟨y, _⟩ ⟨linked, rfl, rfl⟩
  exact next x y linked _ _ corresponds

theorem steps_ite {condition : Prop} [Decidable condition] {a b a' b' : Step α}
    (holds : StepsAlike p before after a b) (fails : StepsAlike p before after a' b') :
    StepsAlike p before after (if condition then a else a') (if condition then b else b') := by
  split
  · exact holds
  · exact fails

/-! The parts that routes are made of. -/

theorem setWord_steps (word : Text) : StepsAlike p kept kept (setWord word) (setWord word) :=
  steps_modify fun _ _ corresponds => corresponds.withWord word

theorem setSpan_steps (index length : Int) :
    StepsAlike p kept kept (setSpan index length) (setSpan index length) :=
  steps_modify fun _ _ corresponds => corresponds.withSpan index length

theorem skipSpan_steps (units : Int) :
    StepsAlike p kept kept (skipSpan units) (skipSpan units) := by
  refine steps_modify fun c d corresponds => ?_
  have moved := corresponds.withSpan (c.replacementIndex + units) 0
  obtain ⟨_, _, _, _, _, _⟩ := corresponds
  exact moved

theorem extendFrom_steps (e : Extent) :
    StepsAlike p kept kept (extendFrom e) (extendFrom e) := by
  refine steps_modify fun c d corresponds => ?_
  have moved := corresponds.withSpan e.start (c.replacementLength + ((e.stop : Int) - e.start))
  obtain ⟨_, _, _, _, _, _⟩ := corresponds
  exact moved

theorem complete_steps {completion completion' : Context → Engine (List Result)}
    (alike : ∀ c d : Context, c.Corresponds p d →
      Alike p before after Eq (completion c) (completion' d)) :
    StepsAlike p before after (complete completion) (complete completion') :=
  steps_get fun c d corresponds => steps_lift (alike c d corresponds)

theorem completeWord_steps {word : Text} {completion completion' : Context → Engine (List Result)}
    (alike : ∀ c d : Context, c.Corresponds p d →
      Alike p before after Eq (completion c) (completion' d)) :
    StepsAlike p before after (completeWord word completion) (completeWord word completion') :=
  steps_bind before (setWord_steps word) fun _ => complete_steps alike

theorem orElse_steps {first first' second second' : Step (List Result)}
    (tries : StepsAlike p before between first first')
    (weaker : ∀ s t, between s t → after s t)
    (fallsBack : StepsAlike p between after second second') :
    StepsAlike p before after (orElse first second) (orElse first' second') :=
  steps_bind between tries fun results => steps_ite fallsBack (steps_pure weaker results)

/-! Routes that keep the relation. -/

section Kept

open Completion Cursor

variable (concord : Concord p kept)

include concord

theorem filesAsCommand_steps : StepsAlike p kept kept filesAsCommand filesAsCommand := by
  apply steps_get
  intro c d corresponds
  have paths := literalFileNames_agree concord corresponds {}
  obtain ⟨_, _, _, _, _, _⟩ := corresponds
  refine steps_bind kept (steps_lift paths) fun results => ?_
  exact steps_done _

theorem commandNames_steps : StepsAlike p kept kept commandNames commandNames := by
  apply steps_get
  intro c d corresponds
  have names := commands_agree concord corresponds { addAmpersand := needsAmpersand c false }
  obtain ⟨_, _, _, _, _, _⟩ := corresponds
  exact steps_lift names

theorem filesAndCommands_steps : StepsAlike p kept kept filesAndCommands filesAndCommands := by
  refine steps_bind kept (filesAsCommand_steps concord) fun files => ?_
  refine steps_bind kept (commandNames_steps concord) fun names => ?_
  exact steps_done _

theorem keysAtCursor_steps : StepsAlike p kept kept keysAtCursor keysAtCursor := by
  apply steps_get
  intro c d corresponds
  obtain ⟨_, _, _, _, _, _⟩ := corresponds
  simp only [Context.innermost?]
  split
  · exact steps_done []
  · refine steps_ite ?_ (steps_done [])
    refine steps_bind kept (setSpan_steps _ 0) fun _ => ?_
    exact complete_steps fun c d corresponds => hashtableKeys_agree concord corresponds _

theorem typeNameAtCursor_steps : StepsAlike p kept kept typeNameAtCursor typeNameAtCursor := by
  apply steps_get
  intro c d corresponds
  obtain ⟨_, _, _, _, _, _⟩ := corresponds
  dsimp only
  split
  · exact steps_done []
  · refine steps_bind kept (setSpan_steps _ _) fun _ => ?_
    exact completeWord_steps fun c d corresponds => typeNames_agree concord corresponds _ _

theorem inputAsFile_steps : StepsAlike p kept kept inputAsFile inputAsFile := by
  apply steps_get
  intro c d corresponds
  obtain ⟨_, _, _, _, _, _⟩ := corresponds
  simp only [Context.root?]
  split
  · exact steps_done []
  · refine steps_ite (steps_done []) ?_
    refine steps_bind kept (setSpan_steps _ _) fun _ => ?_
    exact steps_bind kept (setWord_steps _) fun _ => filesAsCommand_steps concord

theorem attributeArgumentAtCursor_steps :
    StepsAlike p kept kept attributeArgumentAtCursor attributeArgumentAtCursor := by
  apply steps_get
  intro c d corresponds
  have atWord := fun word => attributeArguments_agree concord (corresponds.withWord word)
  obtain ⟨binding, completers, session, _, _, _⟩ := corresponds
  have parents : Context.parent? { c with binding, completers, session } = c.parent? := rfl
  dsimp only
  rw [parents]
  split
  · refine steps_bind kept (steps_lift (atWord _ _)) fun results => ?_
    refine steps_ite ?_ (steps_done results)
    exact steps_bind kept (setSpan_steps _ _) fun _ => steps_done results
  · split
    · exact complete_steps fun c d corresponds => attributeArguments_agree concord corresponds _
    · exact steps_done []

theorem membersAtWord_steps (token : Token) (last : Option Node) :
    StepsAlike p kept kept (membersAtWord token last) (membersAtWord token last) := by
  -- Where members are asked for does not depend on sessions and completers.
  have membersOf := fun target isStatic => complete_steps fun c d corresponds =>
    members_agree concord (c := c) (d := d) corresponds target isStatic
  apply steps_get
  intro c d corresponds
  obtain ⟨binding, completers, session, _, _, _⟩ := corresponds
  have place : memberPlace { c with binding, completers, session } token last =
    memberPlace c token last := rfl
  rw [place]
  cases memberPlace c token last with
  | none => exact steps_done []
  | name target isStatic => exact membersOf target isStatic
  | operator target isStatic =>
      refine steps_bind kept ?_ fun results => ?_
      · exact steps_bind kept (setWord_steps []) fun _ => membersOf target isStatic
      · refine steps_ite ?_ (steps_done results)
        exact steps_bind kept (skipSpan_steps _) fun _ => steps_done results
  | star product access target name isStatic =>
      refine steps_bind kept ?_ fun _ => ?_
      · refine steps_modify fun c d corresponds => ?_
        have changed := corresponds.withRelated
          (c.related.filter (fun n => !n.same product) ++ [access])
        obtain ⟨_, _, _, _, _, _⟩ := corresponds
        exact changed
      · simp only
        split
        · refine steps_bind kept (setWord_steps _) fun _ => ?_
          exact steps_bind kept (extendFrom_steps _) fun _ => membersOf target isStatic
        · exact membersOf target isStatic

theorem staticMembersAfter_steps (type : Node) :
    StepsAlike p kept kept (staticMembersAfter type) (staticMembersAfter type) := by
  apply steps_get
  intro c d corresponds
  have statics := members_agree concord (corresponds.withWord []) type true
  refine steps_bind kept (steps_lift statics) fun results => ?_
  refine steps_ite (steps_done []) ?_
  exact steps_bind kept (skipSpan_steps 1) fun _ => steps_done _

theorem usingName_steps (word : Node) :
    StepsAlike p kept kept (usingName word) (usingName word) := by
  apply steps_get
  intro c d corresponds
  obtain ⟨binding, completers, session, _, _, _⟩ := corresponds
  have parents : Context.parent? { c with binding, completers, session } = c.parent? := rfl
  rw [parents]
  split
  · refine steps_ite ?_ (steps_done none)
    refine steps_bind kept (setSpan_steps _ _) fun _ => ?_
    refine steps_bind kept (setWord_steps _) fun _ => ?_
    split
    · refine steps_bind kept (complete_steps fun c d corresponds =>
        fileNames_agree concord corresponds _) fun files => ?_
      refine steps_ite (steps_done _) ?_
      refine steps_bind kept (complete_steps fun c d corresponds =>
        moduleNames_agree concord corresponds false) fun modules => ?_
      exact steps_done _
    · refine steps_bind kept (complete_steps fun c d corresponds =>
        namespaces_agree concord corresponds) fun results => ?_
      exact steps_done _
    · exact steps_done none
  · exact steps_done none

theorem commandToken_steps (token : Token) (inString : Bool) :
    StepsAlike p kept kept (commandToken token inString) (commandToken token inString) := by
  have others : StepsAlike p kept kept
      (if inString = true then pure [] else filesAndCommands)
      (if inString = true then pure [] else filesAndCommands) :=
    steps_ite (steps_done []) (filesAndCommands_steps concord)
  apply steps_get
  intro c d corresponds
  obtain ⟨binding, completers, session, _, _, sameSession⟩ := corresponds
  have adjacent : adjacentNode? { c with binding, completers, session } token.extent.start =
    adjacentNode? c token.extent.start := rfl
  simp only [adjacent]
  cases adjacentNode? c token.extent.start with
  | none => exact others
  | some adjacent =>
      refine steps_ite ?_ ?_
      · split
        · refine steps_bind kept (completeWord_steps fun c d corresponds =>
            fileNames_agree concord corresponds _) fun results => ?_
          refine steps_ite ?_ (steps_done results)
          exact steps_bind kept (extendFrom_steps _) fun _ => steps_done results
        · -- The value of the variable before the token is read from either session.
          have sameSurface := concord.surface sameSession
          cases adjacent.variablePath? with
          | none => exact steps_done []
          | some path =>
              cases own : c.session with
              | none =>
                  rw [own] at sameSurface
                  rw [Option.map_eq_none_iff.mp sameSurface.symm]
                  exact steps_done []
              | some live =>
                  rw [own] at sameSurface
                  obtain ⟨twin, rfl, surface⟩ := Option.map_eq_some_iff.mp sameSurface.symm
                  have reads : twin.readVariable = live.readVariable := congrArg Prod.snd surface
                  simp only [reads]
                  split
                  · refine steps_bind kept (setWord_steps _) fun _ => ?_
                    exact steps_bind kept (extendFrom_steps _) fun _ => others
                  · exact steps_done []
      · exact steps_ite others (steps_done [])

end Kept

/-! Routes that may ask for class names, which happens in their last step only. -/

section Passing

open Completion Cursor

variable (passage : Passage p before after)

include passage

theorem argumentValues_steps :
    StepsAlike p before after (complete argumentValues) (complete argumentValues) :=
  complete_steps fun _ _ corresponds => argumentValues_alike passage corresponds

theorem steps_pass {a b : Step α} (keeps : StepsAlike p before before a b) :
    StepsAlike p before after a b :=
  steps_mono keeps passage.weaker

theorem wordAsArgument_steps (last : Option Node) (inString : Bool) :
    StepsAlike p before after (wordAsArgument last inString) (wordAsArgument last inString) := by
  have nothing : StepsAlike p before after (pure [] : Step (List Result)) (pure []) :=
    steps_pure passage.weaker []
  have arguments := argumentValues_steps passage
  have files : StepsAlike p before after (complete (fileNames ·)) (complete (fileNames ·)) :=
    steps_pass passage <| complete_steps fun c d corresponds =>
      fileNames_agree passage.starts corresponds _
  apply steps_get
  intro c d corresponds
  obtain ⟨binding, completers, session, _, _, _⟩ := corresponds
  have parents : Context.parent? { c with binding, completers, session } = c.parent? := rfl
  dsimp only [isSwitchFile]
  rw [parents]
  split
  -- With or without keys, what follows asks for arguments at most once.
  all_goals
    refine steps_bind before ?_ fun keys => ?_
    · first
      | exact steps_done []
      | exact complete_steps fun c d corresponds =>
          hashtableKeys_agree passage.starts corresponds _
    · refine steps_ite (steps_pure passage.weaker keys) ?_
      split
      · exact nothing
      · refine steps_ite nothing ?_
        split
        · exact steps_bind before (setWord_steps _) fun _ => steps_ite files arguments
        · exact arguments

theorem plainWord_steps (token : Token) (last : Option Node) (inString : Bool) :
    StepsAlike p before after (plainWord token last inString) (plainWord token last inString) := by
  have concord := passage.starts
  refine orElse_steps (attributeArgumentAtCursor_steps concord) passage.weaker ?_
  apply steps_get
  intro c d corresponds
  obtain ⟨_, _, _, _, _, _⟩ := corresponds
  refine steps_ite (steps_pass passage (commandToken_steps concord token inString)) ?_
  refine steps_ite (steps_ite (steps_pure passage.weaker []) ?_) ?_
  · exact steps_pass passage (complete_steps fun c d corresponds =>
      parameterNames_agree concord corresponds)
  · exact orElse_steps (membersAtWord_steps concord token last) passage.weaker
      (wordAsArgument_steps passage last inString)

theorem wordToken_steps (token : Token) (inString : Bool) :
    StepsAlike p before after (wordToken token inString) (wordToken token inString) := by
  have concord := passage.starts
  have plain := fun last => plainWord_steps passage token last inString
  refine steps_bind before (setWord_steps _) fun _ => ?_
  apply steps_get
  intro c d corresponds
  obtain ⟨_, _, _, _, _, _⟩ := corresponds
  dsimp only [Context.innermost?]
  split
  · refine steps_ite ?_ ?_
    · exact steps_pass passage (completeWord_steps fun c d corresponds =>
        variableNames_agree concord corresponds)
    · refine steps_bind before (usingName_steps concord _) fun results => ?_
      split
      · exact steps_pure passage.weaker _
      · exact plain _
  · exact plain _

theorem parameterToken_steps (token : Token) (last : Option Node) :
    StepsAlike p before after (parameterToken token last) (parameterToken token last) := by
  have concord := passage.starts
  refine steps_bind before (setWord_steps _) fun _ => ?_
  apply steps_get
  intro c d corresponds
  obtain ⟨binding, completers, session, _, _, _⟩ := corresponds
  have parents : Context.parent? { c with binding, completers, session } = c.parent? := rfl
  have isOperator : isOperatorPlace { c with binding, completers, session } token last =
    isOperatorPlace c token last := rfl
  simp only [parents, isOperator]
  refine steps_ite (steps_pass passage (filesAsCommand_steps concord)) ?_
  split
  · exact steps_pass passage (steps_lift (statementFlags_agree concord _ _))
  · refine steps_ite (steps_pass passage (steps_lift (operators_agree concord _))) ?_
    refine steps_ite ?_ (steps_pass passage (complete_steps fun c d corresponds =>
      parameterNames_agree concord corresponds))
    refine steps_bind before (setSpan_steps _ _) fun _ => ?_
    exact completeWord_steps fun c d corresponds => argumentValues_alike passage corresponds

omit passage in
/-- The contexts of one place, made for corresponding requests. -/
theorem context_corresponds (script : Script) (tokens : List Token) (cursor : Int)
    (options : OptionOverrides) {a b : Option Session} {left right : Assoc ArgumentCompleter}
    (sameSession : p.sessions a b)
    (sameCompleters : Assoc.mapValues quietCompleter left = Assoc.mapValues quietCompleter right) :
    (context script tokens cursor { options, session := a, completers := left }).Corresponds p
      (context script tokens cursor { options, session := b, completers := right }) := by
  refine .intro none (lowerKeys right) b rfl ?_ sameSession
  rw [← lowerKeys_mapValues, ← sameCompleters, lowerKeys_mapValues]
  rfl

theorem insideString_steps {inner : Step (List Result)}
    (isAlike : StepsAlike p before after inner inner) (token : Token) (typed access : Text) :
    StepsAlike p before after (insideString inner token typed access)
      (insideString inner token typed access) := by
  refine steps_read ?_
  rw [passage.starts.parse]
  cases p.right.parse with
  | none => exact steps_pure passage.weaker []
  | some parse =>
      apply steps_get
      intro c d corresponds
      obtain ⟨binding, completers, session, _, sameCompleters, sameSession⟩ := corresponds
      have started := context_corresponds (Script.ofTree access (parse access access.length).tree)
        (parse access access.length).tokens access.length c.options.toOverrides sameSession sameCompleters
      refine steps_bindLift after (isAlike _ _ started) ?_
      rintro ⟨results, final⟩ ⟨_, final'⟩ ⟨rfl, ended⟩
      obtain ⟨_, _, _, _, _, _⟩ := ended
      refine steps_ite (steps_done []) ?_
      exact steps_bind after (setSpan_steps _ _) fun _ => steps_done _

theorem stringAsWord_steps (node : Node) :
    StepsAlike p before after (stringAsWord node) (stringAsWord node) := by
  have concord := passage.starts
  unfold stringAsWord
  split
  · exact steps_pure passage.weaker []
  · refine steps_bind before (setWord_steps _) fun _ => ?_
    apply steps_get
    intro c d corresponds
    obtain ⟨_, _, _, _, _, _⟩ := corresponds
    refine steps_ite (steps_pass passage (filesAndCommands_steps concord)) ?_
    refine steps_ite (argumentValues_steps passage) ?_
    refine steps_bind before (complete_steps fun c d corresponds =>
      fileNames_agree concord corresponds _) fun files => ?_
    refine steps_ite ?_ (steps_pure passage.weaker files)
    refine steps_bind before (complete_steps fun c d corresponds =>
      commands_agree concord corresponds _) fun names => ?_
    exact steps_pure passage.weaker _

theorem stringToken_steps {inner : Step (List Result)}
    (isAlike : StepsAlike p before after inner inner) (token : Token) (last : Option Node) :
    StepsAlike p before after (stringToken inner token last) (stringToken inner token last) := by
  unfold stringToken
  split
  · exact steps_pure passage.weaker []
  · split
    · exact steps_pure passage.weaker []
    · refine steps_get fun c d corresponds => ?_
      obtain ⟨_, _, _, _, _, _⟩ := corresponds
      simp only
      split
      · exact insideString_steps passage isAlike token _ _
      · exact stringAsWord_steps passage _

theorem atToken_steps {strings : Option (Token → Option Node → Step (List Result))}
    (inStrings : ∀ route, strings = some route → ∀ token last,
      StepsAlike p before after (route token last) (route token last)) (token : Token) :
    StepsAlike p before after (atToken strings token) (atToken strings token) := by
  have concord := passage.starts
  have nothing : StepsAlike p before after (pure [] : Step (List Result)) (pure []) :=
    steps_pure passage.weaker []
  have onVariable : StepsAlike p before after (completeWord token.text variableNames)
      (completeWord token.text variableNames) :=
    steps_pass passage (completeWord_steps fun c d corresponds =>
      variableNames_agree concord corresponds)
  have onWord := wordToken_steps passage token strings.isNone
  have arguments := argumentValues_steps passage
  have ofAttribute := fun node => steps_pass passage (complete_steps fun c d corresponds =>
    attributeArguments_agree concord (c := c) (d := d) corresponds node)
  apply steps_get
  intro c d corresponds
  obtain ⟨binding, completers, session, _, _, _⟩ := corresponds
  have last : Context.innermost? { c with binding, completers, session } = c.innermost? := rfl
  have parents : Context.parent? { c with binding, completers, session } = c.parent? := rfl
  have isArgument : isArgument { c with binding, completers, session } = isArgument c := rfl
  have isOperator : isOperatorPlace { c with binding, completers, session } = isOperatorPlace c := rfl
  have keyword : flagKeywordAtDash? { c with binding, completers, session } = flagKeywordAtDash? c :=
    rfl
  simp only [last, parents, isArgument, isOperator, keyword]
  -- One case for each kind of token, in the order of the routes.
  split
  case h_1 | h_2 => exact onVariable
  case h_3 | h_4 | h_5 => exact onWord
  case h_6 => exact steps_ite nothing (parameterToken_steps passage token _)
  case h_7 | h_8 =>
    refine steps_bind before (skipSpan_steps _) fun _ => steps_get fun c d corresponds => ?_
    obtain ⟨binding, completers, session, _, _, _⟩ := corresponds
    have target : memberTarget? { c with binding, completers, session } = memberTarget? c := rfl
    rw [target]
    split
    · exact steps_pass passage (complete_steps fun c d corresponds =>
        members_agree concord corresponds _ _)
    · exact nothing
  case h_9 =>
    refine steps_ite nothing (steps_pass passage ?_)
    exact completeWord_steps fun c d corresponds => history_agree concord corresponds
  case h_10 | h_11 =>
    split
    · exact inStrings _ rfl token _
    · exact nothing
  case h_12 =>
    split
    · exact steps_pass passage (staticMembersAfter_steps concord _)
    · exact nothing
  case h_13 =>
    exact steps_ite (steps_bind before (setSpan_steps _ _) fun _ => arguments) nothing
  case h_14 =>
    refine steps_ite ?_ nothing
    exact steps_bind before (setWord_steps _) fun _ => arguments
  case h_15 =>
    refine steps_ite ?_ nothing
    refine steps_bind before (skipSpan_steps _) fun _ => steps_pass passage ?_
    exact completeWord_steps fun c d corresponds => fileNames_agree concord corresponds _
  case h_16 =>
    refine steps_ite (steps_pass passage (steps_lift (operators_agree concord _))) ?_
    split
    · refine steps_bind before (setWord_steps _) fun _ => ?_
      exact steps_pass passage (steps_lift (statementFlags_agree concord _ _))
    · exact nothing
  case h_17 | h_18 | h_19 =>
    split
    · exact steps_bind before (skipSpan_steps _) fun _ => ofAttribute _
    · exact nothing
  case h_20 =>
    refine steps_ite ?_ nothing
    refine steps_bind before (setWord_steps _) fun _ => ?_
    exact steps_pass passage (filesAndCommands_steps concord)

theorem afterToken_steps : StepsAlike p before after afterToken afterToken := by
  have concord := passage.starts
  have nothing : StepsAlike p before after (pure [] : Step (List Result)) (pure []) :=
    steps_pure passage.weaker []
  apply steps_get
  intro c d corresponds
  obtain ⟨binding, completers, session, _, _, _⟩ := corresponds
  have last : Context.innermost? { c with binding, completers, session } = c.innermost? := rfl
  have parents : Context.parent? { c with binding, completers, session } = c.parent? := rfl
  have isArgument : isArgument { c with binding, completers, session } = isArgument c := rfl
  have isLineEmpty : isLineEmpty { c with binding, completers, session } = isLineEmpty c := rfl
  have isSwitchFile : isSwitchFile { c with binding, completers, session } = isSwitchFile c := rfl
  simp only [last, parents, isArgument, isLineEmpty, isSwitchFile]
  refine steps_ite ?_ ?_
  · refine steps_bind before (setWord_steps _) fun _ => ?_
    split
    · refine steps_ite nothing ?_
      refine steps_bind before (setSpan_steps _ _) fun _ => steps_pass passage ?_
      exact complete_steps fun c d corresponds => hashtableKeys_agree concord corresponds _
    · exact argumentValues_steps passage
  · have goesOn : ∀ (results : List Result) (isFile : Bool), StepsAlike p before after
        (if !results.isEmpty then do
          setSpan c.cursor 0
          return results
        else if isFile then completeWord [] (Completion.fileNames ·) else return [])
        (if !results.isEmpty then do
          setSpan c.cursor 0
          return results
        else if isFile then completeWord [] (Completion.fileNames ·) else return []) := by
      intro results isFile
      refine steps_ite ?_ (steps_ite ?_ nothing)
      · exact steps_bind before (setSpan_steps _ _) fun _ => steps_pure passage.weaker results
      · exact steps_pass passage (completeWord_steps fun c d corresponds =>
          fileNames_agree concord corresponds _)
    refine steps_ite ?_ ?_
    · exact steps_bind before (keysAtCursor_steps concord) fun results => goesOn results _
    · split
      · refine steps_ite ?_ ?_
        · refine steps_bind before (complete_steps fun c d corresponds =>
            attributeArguments_agree concord corresponds _) fun results => goesOn results _
        · exact steps_bind before (steps_done []) fun results => goesOn results _
      · exact steps_bind before (steps_done []) fun results => goesOn results _

theorem routeWith_steps {strings : Option (Token → Option Node → Step (List Result))}
    (inStrings : ∀ route, strings = some route → ∀ token last,
      StepsAlike p before after (route token last) (route token last)) :
    StepsAlike p before after (routeWith strings) (routeWith strings) := by
  -- Only the route of the token, which comes first, may ask for class names.
  have concord := passage.ends
  have fallsBack : StepsAlike p after after
      (orElse typeNameAtCursor (orElse keysAtCursor inputAsFile))
      (orElse typeNameAtCursor (orElse keysAtCursor inputAsFile)) := by
    refine orElse_steps (typeNameAtCursor_steps concord) (fun _ _ states => states) ?_
    exact orElse_steps (keysAtCursor_steps concord) (fun _ _ states => states)
      (inputAsFile_steps concord)
  refine orElse_steps ?_ (fun _ _ states => states) fallsBack
  apply steps_get
  intro c d corresponds
  obtain ⟨_, _, _, _, _, _⟩ := corresponds
  simp only
  split
  · exact steps_bind before (setSpan_steps _ _) fun _ => atToken_steps passage inStrings _
  · exact steps_ite (steps_pure passage.weaker []) (afterToken_steps passage)

theorem route_steps : StepsAlike p before after route route := by
  refine routeWith_steps passage fun route isRoute => ?_
  cases isRoute
  refine stringToken_steps passage ?_
  refine routeWith_steps passage fun route isRoute => ?_
  contradiction

end Passing

end Analysis

end TabCompletion
