import TabCompletion.Proofs.Completion.Congruence

/-!
The values of arguments agree in two worlds of concord. The names of the classes of a namespace are
the one listing that may leave the states less alike than it found them; an argument asks for it at
most once, and nothing that follows asks again.
-/

namespace TabCompletion

/-- From states with `before` to states with `after`: both are in concord, and listing class names
leads from one to the other. -/
structure Passage (p : Pairing) (before after : StateRelation) : Prop where
  starts : Concord p before
  ends : Concord p after
  weaker : ∀ s t, before s t → after s t
  classNames : ∀ {a b : Option Session}, p.sessions a b → ∀ nameSpace : Text,
    Alike p before after Eq (Cim.classNames a nameSpace) (Cim.classNames b nameSpace)

/-- What keeps a relation may give up a part of it. -/
theorem Passage.ofAgree {α : Type} {p : Pairing} {before after : StateRelation}
    (passage : Passage p before after) {a b : Engine α} (agree : Agree p before a b) :
    Alike p before after Eq a b :=
  alike_mono agree (fun _ _ states => states) passage.weaker

namespace Completion

/-- Requests for the values of one parameter in corresponding contexts. -/
inductive ValueRequest.Corresponds (p : Pairing) (r : ValueRequest) : ValueRequest → Prop where
  | intro (context : Context) (completer : Option ArgumentCompleter) (binding : Option Binding)
      (info : Option CommandInfo) :
      r.context.Corresponds p context →
      r.parameter.completer.map quietCompleter = completer.map quietCompleter →
      r.binding.map Binding.quiet = binding.map Binding.quiet →
      r.info.map CommandInfo.quiet = info.map CommandInfo.quiet →
      Corresponds p r
        { r with context, binding, info, parameter := { r.parameter with completer } }

section Registered

variable {p : Pairing} {kept : StateRelation} (concord : Concord p kept) {r q : ValueRequest}
  (corresponds : r.Corresponds p q)

include concord corresponds

theorem boundValues_eq : boundValues r = boundValues q := by
  obtain ⟨context, completer, binding, info, sameContext, -, sameBinding, -⟩ := corresponds
  obtain ⟨_, _, session, -, -, sameSession⟩ := sameContext
  have sameScope : Session.scope? r.context.session = Session.scope? session :=
    concord.scope sameSession
  have arguments : r.binding.map (·.boundArguments) = binding.map (·.boundArguments) := by
    have mapped := congrArg (Option.map (·.boundArguments)) sameBinding
    rw [Option.map_map, Option.map_map] at mapped
    exact mapped
  simp only [boundValues, Context.scope, sameScope, arguments]

omit concord in
theorem registeredCompleters_quiet :
    (registeredCompleters r).map quietCompleter = (registeredCompleters q).map quietCompleter := by
  obtain ⟨context, completer, binding, info, sameContext, own, -, -⟩ := corresponds
  obtain ⟨_, completers, _, -, sameCompleters, -⟩ := sameContext
  have listed : ∀ key, (Assoc.get? r.context.completers key).map quietCompleter =
      (Assoc.get? completers key).map quietCompleter := by
    intro key
    rw [← Assoc.get?_mapValues, sameCompleters, Assoc.get?_mapValues]
  have commutes : ∀ found : List (Option ArgumentCompleter),
      (found.filterMap id).map quietCompleter =
        (found.map (Option.map quietCompleter)).filterMap id := by
    intro found
    rw [List.filterMap_map, List.map_filterMap]
    rfl
  simp only [registeredCompleters, commutes, List.map_cons, List.map_nil, own, listed]

/-- Completers that were registered answer alike, though one may fail where the other declines. -/
theorem registeredValues?_eq : registeredValues? r = registeredValues? q := by
  have values := boundValues_eq concord corresponds
  have completers := registeredCompleters_quiet corresponds
  have first : ∀ request, firstAnswer? request (registeredCompleters r) =
      firstAnswer? request (registeredCompleters q) := by
    intro request
    rw [← firstAnswer?_quiet, completers, firstAnswer?_quiet]
  simp only [registeredValues?, first, values]
  obtain ⟨context, completer, binding, info, sameContext, -, -, -⟩ := corresponds
  obtain ⟨_, _, _, -, -, -⟩ := sameContext
  rfl

end Registered

/-! Strategies. -/

section Strategies

variable {p : Pairing} {kept : StateRelation} (concord : Concord p kept) {r q : ValueRequest}
  (corresponds : r.Corresponds p q)

include concord corresponds

theorem completeFrom_agree (values : List Text) :
    Agree p kept (r.completeFrom values) (q.completeFrom values) := by
  obtain ⟨context, completer, binding, info, sameContext, -, -, -⟩ := corresponds
  obtain ⟨_, _, _, -, -, -⟩ := sameContext
  exact concord.values _ _ _

theorem sessionValues_agree {query : Text} (isQuery : query ∈ queryCommands) (valueProperty : Text)
    (toolTipProperty : Option Text) (numeric : Bool) :
    Agree p kept (sessionValues r query valueProperty toolTipProperty numeric)
      (sessionValues q query valueProperty toolTipProperty numeric) := by
  obtain ⟨context, completer, binding, info, sameContext, -, -, -⟩ := corresponds
  obtain ⟨_, _, session, -, -, sameSession⟩ := sameContext
  refine agree_bind (concord.query sameSession _ isQuery) fun items => ?_
  exact concord.values _ _ _

theorem inputClasses_agree : Agree p kept (inputClasses r) (inputClasses q) := by
  obtain ⟨context, completer, binding, info, sameContext, -, -, -⟩ := corresponds
  obtain ⟨_, _, _, -, -, -⟩ := sameContext
  simp only [inputClasses]
  cases Inference.namedOrFirst r.command "InputObject" with
  | none => exact agree_pure []
  | some input =>
      refine concord.inference rfl fun m binder same inScript => ?_
      rw [Inference.infer_binder same]
      exact agree_pure _

theorem cimNamespaces_agree : Agree p kept (cimNamespaces r) (cimNamespaces q) := by
  obtain ⟨context, completer, binding, info, sameContext, -, -, -⟩ := corresponds
  obtain ⟨_, _, session, -, -, sameSession⟩ := sameContext
  simp only [cimNamespaces]
  refine agree_bind (concord.childNamespaces sameSession _) fun children => ?_
  exact concord.values _ _ _

theorem cimMethods_agree (isStatic : Bool) (nameSpace className : Text) :
    Agree p kept (cimMethods r isStatic nameSpace className)
      (cimMethods q isStatic nameSpace className) := by
  obtain ⟨context, completer, binding, info, sameContext, -, -, -⟩ := corresponds
  obtain ⟨_, _, session, -, -, sameSession⟩ := sameContext
  exact agree_bind (concord.classInfo sameSession nameSpace className) fun info => agree_pure _

theorem cimMethodNames_agree : Agree p kept (cimMethodNames r) (cimMethodNames q) := by
  have ofClass := cimMethods_agree concord corresponds
  have ofInput := inputClasses_agree concord corresponds
  obtain ⟨context, completer, binding, info, sameContext, -, -, -⟩ := corresponds
  obtain ⟨_, _, _, -, -, -⟩ := sameContext
  simp only [cimMethodNames]
  split
  · refine agree_bind (ofClass true _ _) fun candidates => ?_
    exact concord.values _ _ _
  · refine agree_bind ofInput fun classes => ?_
    refine agree_bind (collectLists_agree (fun _ => ofClass false _ _) classes) fun candidates => ?_
    exact concord.values _ _ _

theorem cimResultClassNames_agree :
    Agree p kept (cimResultClassNames r) (cimResultClassNames q) := by
  have ofInput := inputClasses_agree concord corresponds
  have completes := completeFrom_agree concord corresponds
  obtain ⟨context, completer, binding, info, sameContext, -, -, -⟩ := corresponds
  obtain ⟨_, _, session, -, -, sameSession⟩ := sameContext
  refine agree_bind ofInput fun classes => ?_
  refine agree_bind (collectLists_agree ?_ classes) completes
  exact fun known => concord.associatedNames sameSession known.1 known.2

theorem pipelineMembers?_agree : Agree p kept (pipelineMembers? r) (pipelineMembers? q) := by
  have completes := completeFrom_agree concord corresponds
  obtain ⟨context, completer, binding, info, sameContext, -, -, -⟩ := corresponds
  have properties := propertyNames_agree concord sameContext
  obtain ⟨_, _, _, -, -, -⟩ := sameContext
  simp only [pipelineMembers?]
  cases previousElement? r.context.script r.command with
  | none => exact agree_pure none
  | some previous =>
      refine concord.inference rfl fun m binder same inScript => ?_
      rw [Inference.infer_binder same]
      refine agree_bind (properties _) fun names => ?_
      exact agree_map some (completes names)

omit corresponds in
/-- Paths and commands are offered alike when the commands are of one kind. -/
theorem defaultValues_agree {c d : Context} (sameContext : c.Corresponds p d)
    {a b : Option CommandInfo} (sameInfo : a.map CommandInfo.quiet = b.map CommandInfo.quiet) :
    Agree p kept (defaultValues c a) (defaultValues d b) := by
  have isApplication : a.any (·.kind == .application) = b.any (·.kind == .application) := by
    have mapped := congrArg (fun info => info.any (·.kind == .application)) sameInfo
    rw [Option.any_map, Option.any_map] at mapped
    exact mapped
  have paths := fileNames_agree concord sameContext {}
  have literalPaths := literalFileNames_agree concord sameContext {}
  have names := commands_agree concord sameContext { addAmpersand := false }
  obtain ⟨_, _, _, -, -, -⟩ := sameContext
  simp only [defaultValues, isApplication]
  refine alike_ite (fun _ => agree_bind literalPaths fun found => ?_) fun _ =>
    agree_bind paths fun found => ?_
  all_goals exact alike_ite (fun _ => agree_map (found ++ ·) names) fun _ => agree_pure found

theorem enumValues?_agree : Agree p kept (enumValues? r) (enumValues? q) := by
  have completes := completeFrom_agree concord corresponds
  obtain ⟨context, completer, binding, info, sameContext, -, -, -⟩ := corresponds
  obtain ⟨_, _, _, -, -, -⟩ := sameContext
  refine agree_bind concord.registryOf fun registry => ?_
  simp only
  split
  · exact agree_map some (completes _)
  · exact agree_pure none

theorem truthValues?_agree : Agree p kept (truthValues? r) (truthValues? q) := by
  obtain ⟨context, completer, binding, info, sameContext, -, -, -⟩ := corresponds
  obtain ⟨_, _, _, -, -, -⟩ := sameContext
  refine agree_bind concord.registryOf fun registry => ?_
  refine alike_ite (fun _ => agree_pure none) fun _ => ?_
  refine alike_ite (fun _ => agree_pure (some [])) fun _ => ?_
  exact agree_bind (concord.pattern _) fun pattern => agree_pure _

theorem listedValues?_agree : Agree p kept (listedValues? r) (listedValues? q) := by
  have completes := completeFrom_agree concord corresponds
  obtain ⟨context, completer, binding, info, -, -, -, -⟩ := corresponds
  simp only [listedValues?]
  split
  · exact agree_map some (completes _)
  · exact agree_pure none

end Strategies

section Values

variable {p : Pairing} {before after : StateRelation} (passage : Passage p before after)
  {r q : ValueRequest} (corresponds : r.Corresponds p q)

include passage corresponds

theorem runStrategy_alike {strategy : NativeStrategy}
    (isQuery : ∀ query, strategy.query? = some query → query ∈ queryCommands) :
    Alike p before after Eq (runStrategy r strategy) (runStrategy q strategy) := by
  have concord := passage.starts
  have completes := completeFrom_agree concord corresponds
  have completesAfter := completeFrom_agree passage.ends corresponds
  have values := @sessionValues_agree p before concord r q corresponds
  have members := pipelineMembers?_agree concord corresponds
  have nameSpaces := cimNamespaces_agree concord corresponds
  have methods := cimMethodNames_agree concord corresponds
  have classes := cimResultClassNames_agree concord corresponds
  obtain ⟨context, completer, binding, info, sameContext, -, -, -⟩ := corresponds
  have modules := moduleNames_agree concord sameContext
  have names := commands_agree concord sameContext { addAmpersand := false }
  have paths := fileNames_agree concord sameContext
  have literalPaths := literalFileNames_agree concord sameContext
  obtain ⟨_, _, session, -, -, sameSession⟩ := sameContext
  -- Only the names of classes lead from one relation to the other.
  cases strategy with
  | cimClassName =>
      refine alike_bind after (passage.classNames sameSession _) ?_
      rintro names _ rfl
      exact agree_map some (completesAfter names)
  | sessionQuery query valueProperty toolTipProperty numeric =>
      exact passage.ofAgree (agree_map some (values (isQuery query rfl) _ _ _))
  | module loadedOnly => exact passage.ofAgree (agree_map some (modules loadedOnly))
  | command => exact passage.ofAgree (agree_map some names)
  | location literal =>
      refine passage.ofAgree ?_
      cases literal with
      | true => exact agree_map some (literalPaths _)
      | false => exact agree_map some (paths _)
  | fixedValues values => exact passage.ofAgree (agree_map some (completes values))
  | pipelineMembers => exact passage.ofAgree members
  | cimNamespace => exact passage.ofAgree (agree_map some nameSpaces)
  | cimMethodName => exact passage.ofAgree (agree_map some methods)
  | cimResultClassName => exact passage.ofAgree (agree_map some classes)

theorem nativeValues?_alike : Alike p before after Eq (nativeValues? r) (nativeValues? q) := by
  have runs := @runStrategy_alike p before after passage r q corresponds
  have sameKey : q.commandName = r.commandName ∧ q.parameter.name = r.parameter.name := by
    obtain ⟨context, completer, binding, info, -, -, -, -⟩ := corresponds
    exact ⟨rfl, rfl⟩
  rw [nativeValues?, nativeValues?, sameKey.1, sameKey.2]
  cases found : Assoc.get? NativeTable.bundled
      (NativeTable.key (Command.stripModule r.commandName) r.parameter.name) with
  | none => exact passage.ofAgree (agree_pure none)
  | some strategy => exact runs fun query isQuery => bundled_query_mem found isQuery

omit corresponds in
/-- A strategy that keeps the relation may come before others. -/
theorem firstApplying_cons {a b : Engine (Option (List Result))}
    {left right : List (Engine (Option (List Result)))} (first : Agree p before a b)
    (rest : Alike p before after Eq (firstApplying left) (firstApplying right)) :
    Alike p before after Eq (firstApplying (a :: left)) (firstApplying (b :: right)) := by
  refine alike_after first fun results => ?_
  cases results with
  | none => exact rest
  | some results => exact passage.ofAgree (agree_pure (some results))

omit passage corresponds in
theorem firstApplying_last {a b : Engine (Option (List Result))} (last : Alike p before after Eq a b) :
    Alike p before after Eq (firstApplying [a]) (firstApplying [b]) := by
  refine alike_bind after last ?_
  rintro results _ rfl
  cases results with
  | none => exact agree_pure none
  | some results => exact agree_pure (some results)

/-- The native strategy is the last that is tried; after it only paths and commands are offered. -/
theorem parameterValues_alike :
    Alike p before after Eq (parameterValues r) (parameterValues q) := by
  have concord := passage.starts
  have registered : Agree p before (pure (registeredValues? r)) (pure (registeredValues? q)) := by
    rw [registeredValues?_eq concord corresponds]
    exact agree_pure _
  have tried := firstApplying_cons passage registered <|
    firstApplying_cons passage (enumValues?_agree concord corresponds) <|
    firstApplying_cons passage (truthValues?_agree concord corresponds) <|
    firstApplying_cons passage (listedValues?_agree concord corresponds) <|
    firstApplying_last (nativeValues?_alike passage corresponds)
  obtain ⟨context, completer, binding, info, sameContext, -, -, sameInfo⟩ := corresponds
  refine alike_bind after tried ?_
  rintro results _ rfl
  cases results with
  | some results => exact agree_pure results
  | none => exact defaultValues_agree passage.ends sameContext sameInfo

omit corresponds in
theorem argumentValues_alike {c d : Context} (corresponds : c.Corresponds p d) :
    Alike p before after Eq (argumentValues c) (argumentValues d) := by
  have sameContext := corresponds
  obtain ⟨binding, completers, session, sameBinding, -, -⟩ := corresponds
  have sameCommand : Context.command? { c with binding, completers, session } = c.command? := rfl
  simp only [argumentValues, sameCommand]
  cases c.command? with
  | none => exact passage.ofAgree (agree_pure [])
  | some command =>
      apply alike_read
      rcases quiet_cases (bound_quiet passage.starts sameBinding command) with
        ⟨left, right⟩ | ⟨x, y, left, right, same⟩
      · rw [left, right]
        exact passage.ofAgree (defaultValues_agree passage.starts sameContext rfl)
      · rw [left, right]
        have arguments : x.arguments = y.arguments := (congrArg Binding.arguments same :)
        have name : x.commandName = y.commandName := (congrArg Binding.commandName same :)
        have info : x.command.map CommandInfo.quiet = y.command.map CommandInfo.quiet :=
          (congrArg Binding.command same :)
        -- The place of the cursor is found from the arguments, which both bindings share.
        have location : argumentLocation { c with binding, completers, session } command y =
            argumentLocation c command x := by
          simp only [argumentLocation, arguments]
          rfl
        have parameters := congrArg (parameterAt? · (argumentLocation c command x)) same
        simp only [parameterAt?_quiet] at parameters
        simp only [location]
        generalize parameterAt? x (argumentLocation c command x) = own at parameters
        generalize parameterAt? y (argumentLocation c command x) = other at parameters
        cases own with
        | none =>
            rw [Option.map_eq_none_iff.mp parameters.symm]
            exact passage.ofAgree (defaultValues_agree passage.starts sameContext info)
        | some parameter =>
            obtain ⟨twin, isTwin, alike⟩ := Option.map_eq_some_iff.mp parameters.symm
            rw [isTwin, Parameter.eq_of_quiet alike.symm, ← name]
            refine parameterValues_alike passage (.intro _ twin.completer (some y) y.command sameContext
              ?_ ?_ info)
            · exact (congrArg Parameter.completer alike.symm :)
            · exact congrArg some same

end Values

end Completion

end TabCompletion
