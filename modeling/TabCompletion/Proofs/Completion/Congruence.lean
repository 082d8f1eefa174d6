import TabCompletion.Completion.Argument
import TabCompletion.Completion.History
import TabCompletion.Completion.Operator
import TabCompletion.Completion.TypeName
import TabCompletion.Completion.Variable
import TabCompletion.Proofs.Completion.Concord

/-!
Every completion agrees in two worlds of concord: one lemma for each, in the order in which they are
built on each other.
-/

namespace TabCompletion.Completion

variable {p : Pairing} {kept : StateRelation} (concord : Concord p kept) {c d : Context}
  (corresponds : c.Corresponds p d)

include concord

/-! Commands, modules, variables and the history. -/

theorem operators_agree (word : Text) : Agree p kept (operators word) (operators word) :=
  agree_bind (concord.pattern _) fun _ => agree_pure _

theorem statementFlags_agree (keyword word : Text) :
    Agree p kept (statementFlags keyword word) (statementFlags keyword word) :=
  agree_bind (concord.pattern _) fun _ => agree_pure _

include corresponds

theorem commands_agree (options : CommandOptions) :
    Agree p kept (commands c options) (commands d options) := by
  obtain ⟨binding, completers, session, -, -, sameSession⟩ := corresponds
  simp only [commands]
  refine agree_bind (concord.pattern _) fun pattern => ?_
  refine agree_bind (concord.query sameSession _ ?_) fun values => agree_pure _
  simp [commandQuery, queryCommands, fixedQueries]

theorem moduleNames_agree (loadedOnly : Bool) :
    Agree p kept (moduleNames c loadedOnly) (moduleNames d loadedOnly) := by
  obtain ⟨binding, completers, session, -, -, sameSession⟩ := corresponds
  simp only [moduleNames]
  refine agree_bind (concord.pattern _) fun pattern => ?_
  refine agree_bind (concord.query sameSession _ ?_) fun values => agree_pure _
  simp [moduleQuery, queryCommands, fixedQueries]

theorem history_agree : Agree p kept (history c) (history d) := by
  obtain ⟨binding, completers, session, -, -, sameSession⟩ := corresponds
  simp only [history]
  refine alike_ite (fun _ => ?_) fun _ => ?_
  · refine agree_bind (concord.query sameSession _ ?_) fun values => agree_pure _
    simp [queryCommands, fixedQueries]
  · refine agree_bind (concord.query sameSession _ ?_) fun values => ?_
    · simp [queryCommands, fixedQueries]
    · exact agree_bind (concord.pattern _) fun pattern => agree_pure _

theorem sessionVariables_agree (name : Text) (scope : Option Text) :
    Agree p kept (sessionVariables c name scope) (sessionVariables d name scope) := by
  obtain ⟨binding, completers, session, -, -, sameSession⟩ := corresponds
  simp only [sessionVariables]
  refine agree_bind (concord.query sameSession _ ?_) fun values => agree_pure _
  simp [queryCommands, fixedQueries]

theorem driveItems_agree (qualifier : Text) :
    Agree p kept (driveItems c qualifier) (driveItems d qualifier) := by
  obtain ⟨binding, completers, session, -, -, sameSession⟩ := corresponds
  simp only [driveItems]
  refine agree_bind (concord.query sameSession _ ?_) fun values => agree_pure _
  simp [queryCommands, fixedQueries]

theorem variableNames_agree : Agree p kept (variableNames c) (variableNames d) := by
  have ofSession := sessionVariables_agree concord corresponds
  have ofDrive := driveItems_agree concord corresponds
  obtain ⟨binding, completers, session, -, -, sameSession⟩ := corresponds
  simp only [variableNames]
  refine agree_bind (concord.pattern _) fun pattern => ?_
  refine alike_ite (fun _ => ?_) fun _ => ?_
  · refine agree_bind (ofSession _ _) fun values => ?_
    exact agree_bind (agree_pure _) fun candidates => agree_pure _
  · exact agree_bind (ofDrive _) fun candidates => agree_pure _

/-! Paths. -/

theorem shareMatches_agree (pattern : Wildcard.Pattern) (server : Text) (shares : List Text) :
    Agree p kept (shareMatches c pattern server shares) (shareMatches d pattern server shares) := by
  obtain ⟨binding, completers, session, -, -, sameSession⟩ := corresponds
  induction shares with
  | nil => exact agree_pure []
  | cons share rest ih =>
      simp only [shareMatches]
      refine agree_bind (concord.isStopped sameSession) fun isStopped => ?_
      refine alike_ite (fun _ => agree_pure []) fun _ => ?_
      refine agree_bind ih fun others => ?_
      exact alike_ite (fun _ => agree_pure others) fun _ => agree_pure _

theorem matchShares_agree (server started : Text) :
    Agree p kept (matchShares c server started) (matchShares d server started) := by
  -- Only the empty listing compiles a pattern, which may be refused; that failure is excused.
  have listed := shareMatches_agree concord corresponds
  apply alike_read
  rcases concord.shares server with same | ⟨missing, empty, isExcused⟩
  · rw [same]
    cases p.right.paths.shares server with
    | none => exact agree_pure []
    | some shares =>
        refine agree_bind (concord.pattern _) fun pattern => ?_
        exact agree_bind (listed pattern server shares) fun found => agree_pure _
  · rw [missing, empty]
    intro s t start
    simp only [Engine.run_bind, Engine.pattern, compilePattern]
    cases Wildcard.Pattern.compile (started ++ Text.ofString "*") with
    | ok pattern => exact .answered (sortIgnoringCase_nil _).symm start
    | error error => exact .excused (isExcused error)

omit corresponds in
theorem pathWord_eq (word : Text) : PathWord.of p.left.paths word = PathWord.of p.right.paths word := by
  rw [← concord.paths]
  rfl

omit corresponds in
theorem acceptedItems_eq (container leaf : Text) (accepts : PathItem → Bool) :
    acceptedItems p.left.paths container leaf accepts =
      acceptedItems p.right.paths container leaf accepts := by
  rw [← concord.paths]
  rfl

theorem matchItems_agree (word : Text) (wanted : PathFilter) :
    Agree p kept (matchItems c word wanted) (matchItems d word wanted) := by
  obtain ⟨binding, completers, session, -, -, -⟩ := corresponds
  have separator : p.left.paths.separator = p.right.paths.separator := by
    rw [← concord.paths]
  apply alike_read
  simp only [pathWord_eq concord, acceptedItems_eq concord, separator]
  refine alike_ite (fun _ => ?_) fun _ => ?_
  · exact agree_bind (concord.pattern _) fun pattern => agree_pure _
  · exact agree_bind (concord.pattern _) fun pattern => agree_pure _

theorem fileNames_agree (wanted : PathFilter) :
    Agree p kept (fileNames c wanted) (fileNames d wanted) := by
  have ofShares := matchShares_agree concord corresponds
  have ofItems := matchItems_agree concord corresponds
  obtain ⟨binding, completers, session, -, -, -⟩ := corresponds
  simp only [fileNames]
  split
  · exact agree_bind (ofShares _ _) fun found => agree_pure _
  · exact agree_bind (ofItems _ _) fun found => agree_pure _

theorem literalFileNames_agree (wanted : PathFilter) :
    Agree p kept (literalFileNames c wanted) (literalFileNames d wanted) := by
  refine fileNames_agree concord ?_ wanted
  obtain ⟨binding, completers, session, sameBinding, sameCompleters, sameSession⟩ := corresponds
  exact .intro binding completers session sameBinding sameCompleters sameSession

/-! Type names. -/

omit corresponds in
theorem lookupCatalog_agree (word : Text) :
    Agree p kept (lookupCatalog word) (lookupCatalog word) := by
  refine agree_bind concord.catalog fun catalog => ?_
  cases looked : catalog.lookup word with
  | ok found => exact agree_pure found
  | error error => exact alike_throw (concord.refused (refused_of_lookup looked))

omit corresponds in
theorem definedTypes_agree (word before after : Text) (root : Node) :
    Agree p kept (definedTypes word before after root) (definedTypes word before after root) :=
  agree_bind (concord.pattern _) fun _ => agree_pure _

theorem typeNames_agree (before after : Text) :
    Agree p kept (typeNames c before after) (typeNames d before after) := by
  obtain ⟨binding, completers, session, -, -, -⟩ := corresponds
  change Agree p kept (typeNames c before after) (typeNames c before after)
  simp only [typeNames]
  refine agree_bind (lookupCatalog_agree concord _) fun listed => ?_
  split
  · exact agree_bind (definedTypes_agree concord _ _ _ _) fun defined => agree_pure _
  · exact agree_bind (agree_pure []) fun defined => agree_pure _

theorem namespaces_agree : Agree p kept (namespaces c) (namespaces d) := by
  obtain ⟨binding, completers, session, -, -, -⟩ := corresponds
  exact agree_bind (lookupCatalog_agree concord _) fun listed => agree_pure _

theorem attributeArguments_agree (node : Node) :
    Agree p kept (attributeArguments c node) (attributeArguments d node) := by
  obtain ⟨binding, completers, session, -, -, -⟩ := corresponds
  simp only [attributeArguments]
  refine agree_bind concord.registryOf fun registry => ?_
  split
  · exact agree_pure []
  · exact agree_bind (concord.pattern _) fun pattern => agree_pure _

/-! Members. -/

omit corresponds in
theorem reflectedMembers_agree (typeName : Text) (isStatic : Bool) :
    Agree p kept (reflectedMembers typeName isStatic) (reflectedMembers typeName isStatic) := by
  refine alike_get fun s t start => ?_
  have unchanged : ∀ s' t' : EngineState, s' = s ∧ t' = t → kept s' t' := by
    rintro _ _ ⟨rfl, rfl⟩
    exact start
  rw [← concord.registry start, ← concord.attachments start]
  refine alike_ite (fun _ => alike_pure rfl unchanged) fun _ => ?_
  split
  · exact alike_pure rfl unchanged
  · rename_i endless
    refine alike_throw ?_
    rintro _ _ ⟨rfl, rfl⟩
    exact concord.endless typeName start endless

omit concord corresponds in
theorem collectLists_agree {α β : Type} {collect collect' : α → Engine (List β)}
    (agree : ∀ item, Agree p kept (collect item) (collect' item)) (items : List α) :
    Agree p kept (collectLists collect items) (collectLists collect' items) := by
  induction items with
  | nil => exact agree_pure []
  | cons item rest ih =>
      refine agree_bind (agree item) fun found => ?_
      exact agree_bind ih fun others => agree_pure _

theorem foreignMembers_agree (isStatic : Bool) (type : InferredType) :
    Agree p kept (foreignMembers c isStatic type) (foreignMembers d isStatic type) := by
  obtain ⟨binding, completers, session, -, -, sameSession⟩ := corresponds
  cases type with
  | scriptClass definition => exact agree_pure []
  | reflected typeName =>
      refine agree_bind (reflectedMembers_agree concord typeName isStatic) fun members => ?_
      exact agree_bind concord.registryOf fun registry => agree_pure _
  | cim nameSpace className =>
      refine agree_bind (concord.classInfo sameSession nameSpace className) fun info => ?_
      refine agree_bind concord.registryOf fun registry => ?_
      exact agree_bind (reflectedMembers_agree concord _ isStatic) fun members => agree_pure _

theorem sourceMembers_agree (isStatic : Bool) (source : MemberSource) :
    Agree p kept (sourceMembers c isStatic source) (sourceMembers d isStatic source) := by
  have foreign := foreignMembers_agree concord corresponds isStatic
  obtain ⟨binding, completers, session, -, -, -⟩ := corresponds
  cases source with
  | defined definition isOutermost => exact agree_bind concord.registryOf fun registry => agree_pure _
  | described typeName => exact reflectedMembers_agree concord typeName isStatic
  | inferred type => exact foreign type

theorem inferredMembers_agree (isStatic : Bool) (type : InferredType) :
    Agree p kept (inferredMembers c isStatic type) (inferredMembers d isStatic type) := by
  have sources := sourceMembers_agree concord corresponds isStatic
  obtain ⟨binding, completers, session, -, -, -⟩ := corresponds
  refine concord.inference rfl fun m binder same inScript => ?_
  rw [@memberSources_binder m binder]
  exact collectLists_agree sources _

theorem membersOfTypes_agree (isStatic : Bool) (types : List InferredType) :
    Agree p kept (membersOfTypes c isStatic types) (membersOfTypes d isStatic types) :=
  collectLists_agree (inferredMembers_agree concord corresponds isStatic) types

omit corresponds in
theorem valueMembers_agree (v : Value) (isStatic : Bool) :
    Agree p kept (valueMembers v isStatic) (valueMembers v isStatic) := by
  have ofType := reflectedMembers_agree concord
  refine agree_bind concord.registryOf fun registry => ?_
  cases v with
  | type _ typeName => exact ofType typeName true
  | _ => exact agree_bind (collectLists_agree (ofType · isStatic) _) fun ofTypes => agree_pure _

theorem targetMembers_agree (target : Node) (isStatic : Bool) :
    Agree p kept (targetMembers c target isStatic) (targetMembers d target isStatic) := by
  have ofType := inferredMembers_agree concord corresponds true
  have ofTypes := membersOfTypes_agree concord corresponds isStatic
  obtain ⟨binding, completers, session, -, -, sameSession⟩ := corresponds
  have sameScope : Session.scope? c.session = Session.scope? session := concord.scope sameSession
  refine concord.inference rfl fun m binder same inScript => ?_
  rw [Inference.infer_binder same]
  simp only [Context.scope, ← sameScope]
  cases target.typeExpression? with
  | some typeName => exact ofType _
  | none =>
      cases Evaluation.attempt (Session.scope? c.session) target with
      | none reason => exact ofTypes _
      | value v => exact alike_ite (fun _ => valueMembers_agree concord v isStatic) fun _ => ofTypes _

theorem members_agree (target : Node) (isStatic : Bool) :
    Agree p kept (members c target isStatic) (members d target isStatic) := by
  have all := targetMembers_agree concord corresponds target isStatic
  obtain ⟨binding, completers, session, -, -, -⟩ := corresponds
  refine agree_bind all fun members => ?_
  exact agree_bind (concord.pattern _) fun pattern => agree_pure _

theorem propertyNames_agree (types : List InferredType) :
    Agree p kept (propertyNames c types) (propertyNames d types) :=
  agree_bind (membersOfTypes_agree concord corresponds false types) fun _ => agree_pure _

/-! Keys and parameters. -/

theorem hashtableKeys_agree (hashtable : Node) :
    Agree p kept (hashtableKeys c hashtable) (hashtableKeys d hashtable) := by
  obtain ⟨binding, completers, session, -, -, -⟩ := corresponds
  refine concord.inference rfl fun m binder same inScript => ?_
  rw [@keyCandidates_binder m binder]
  simp only
  refine alike_ite (fun _ => agree_pure []) fun _ => ?_
  exact agree_bind (concord.pattern _) fun pattern => agree_pure _

omit concord corresponds in
/-- Bindings that are alike when quiet are both absent or both present. -/
theorem quiet_cases {a b : Option Binding} (same : a.map Binding.quiet = b.map Binding.quiet) :
    (a = none ∧ b = none) ∨ ∃ x y, a = some x ∧ b = some y ∧ x.quiet = y.quiet := by
  cases a with
  | none => exact Or.inl ⟨rfl, Option.map_eq_none_iff.mp same.symm⟩
  | some x =>
      obtain ⟨y, isSome, alike⟩ := Option.map_eq_some_iff.mp same.symm
      exact Or.inr ⟨x, y, rfl, isSome, alike.symm⟩

omit corresponds in
/-- The binding of a context, or else that of the binder. -/
theorem bound_quiet {a b : Option Binding} (same : a.map Binding.quiet = b.map Binding.quiet)
    (command : Node) : (a.or (p.left.binder.bind (· command))).map Binding.quiet =
      (b.or (p.right.binder.bind (· command))).map Binding.quiet := by
  rw [Option.map_or, Option.map_or, same, Binder.bind_quiet concord.binder]

omit concord corresponds in
theorem parameterResults_of_quiet {x y : Binding} (same : x.quiet = y.quiet) (registry : Registry)
    (word : Text) (pattern : Wildcard.Pattern) (cursor : Int) :
    parameterResults registry word pattern (openParameters x cursor) =
      parameterResults registry word pattern (openParameters y cursor) := by
  rw [← parameterResults_quiet, ← openParameters_quiet, same, openParameters_quiet,
    parameterResults_quiet]

theorem parameterNames_agree : Agree p kept (parameterNames c) (parameterNames d) := by
  obtain ⟨binding, completers, session, sameBinding, -, -⟩ := corresponds
  have sameCommand : Context.command? { c with binding, completers, session } = c.command? := rfl
  simp only [parameterNames, sameCommand]
  cases c.command? with
  | none => exact agree_pure []
  | some command =>
      apply alike_read
      rcases quiet_cases (bound_quiet concord sameBinding command) with
        ⟨left, right⟩ | ⟨x, y, left, right, same⟩
      · rw [left, right]
        exact agree_pure []
      · rw [left, right]
        have known : x.command.isSome = y.command.isSome := by
          simpa [Binding.quiet] using congrArg (fun b => b.command.isSome) same
        simp only [Option.filter_some, known]
        cases y.command.isSome with
        | false => exact agree_pure []
        | true =>
            refine agree_bind (concord.pattern _) fun pattern => ?_
            refine agree_bind concord.registryOf fun registry => ?_
            exact alike_pure (parameterResults_of_quiet same registry _ pattern c.cursor)
              fun _ _ states => states

end TabCompletion.Completion
