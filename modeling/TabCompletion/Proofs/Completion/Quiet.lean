import TabCompletion.Completion.Argument
import TabCompletion.Completion.Parameter
import TabCompletion.Proofs.Assoc

/-!
Quiet completers: where a completer fails, the quiet one declines. Making the completers of a
parameter, a command, a binding or a table quiet changes nothing else of it, and whatever is looked
up in them is found as before. So a failing completer and a declining one cannot be told apart.
-/

namespace TabCompletion

/-! Making completers quiet. -/

/-- Declines where the completer fails. -/
def quietCompleter (completer : ArgumentCompleter) : ArgumentCompleter := fun request =>
  match completer request with
  | .failed => .declined
  | answer => answer

def Parameter.quiet (p : Parameter) : Parameter :=
  { p with completer := p.completer.map quietCompleter }

/-- Parameters that are alike when quiet differ in their completers only. -/
theorem Parameter.eq_of_quiet {a b : Parameter} (same : a.quiet = b.quiet) :
    b = { a with completer := b.completer } := by
  obtain ⟨⟩ := a
  obtain ⟨⟩ := b
  simp only [quiet, mk.injEq] at same ⊢
  simp [same]

def CommandInfo.quiet (info : CommandInfo) : CommandInfo :=
  { info with parameters := info.parameters.map Parameter.quiet }

def Binding.quiet (b : Binding) : Binding :=
  { b with
    command := b.command.map CommandInfo.quiet
    boundParameters := Assoc.mapValues Parameter.quiet b.boundParameters
    unbound := b.unbound.map Parameter.quiet }

def Binder.quiet (binder : Binder) : Binder := fun command => (binder command).map Binding.quiet

/-! What is quiet stays as it is. -/

section Idempotence

variable {α : Type} {f : α → α} (isQuiet : ∀ x, f (f x) = f x)

include isQuiet

theorem option_map_quiet (x : Option α) : (x.map f).map f = x.map f := by
  cases x with
  | none => rfl
  | some x => exact congrArg some (isQuiet x)

theorem list_map_quiet (items : List α) : (items.map f).map f = items.map f := by
  rw [List.map_map]
  exact List.map_congr_left fun x _ => isQuiet x

theorem mapValues_quiet (table : Assoc α) :
    Assoc.mapValues f (Assoc.mapValues f table) = Assoc.mapValues f table := by
  rw [Assoc.mapValues, Assoc.mapValues, List.map_map]
  exact List.map_congr_left fun entry _ => congrArg (Prod.mk entry.1) (isQuiet entry.2)

end Idempotence

theorem quietCompleter_quiet (completer : ArgumentCompleter) :
    quietCompleter (quietCompleter completer) = quietCompleter completer := by
  funext request
  simp only [quietCompleter]
  cases completer request <;> rfl

theorem Parameter.quiet_quiet (p : Parameter) : p.quiet.quiet = p.quiet :=
  congrArg (fun completer => { p with completer }) (option_map_quiet quietCompleter_quiet p.completer)

theorem CommandInfo.quiet_quiet (info : CommandInfo) : info.quiet.quiet = info.quiet :=
  congrArg (fun parameters => { info with parameters })
    (list_map_quiet Parameter.quiet_quiet info.parameters)

theorem Binding.quiet_quiet (b : Binding) : b.quiet.quiet = b.quiet := by
  simp only [quiet, option_map_quiet CommandInfo.quiet_quiet, mapValues_quiet Parameter.quiet_quiet,
    list_map_quiet Parameter.quiet_quiet]

theorem Binder.quiet_quiet (binder : Binder) : binder.quiet.quiet = binder.quiet :=
  funext fun command => option_map_quiet Binding.quiet_quiet (binder command)

/-! Looking up parameters. -/

theorem findParameter?_quiet (parameters : List Parameter) (name : Text) :
    findParameter? (parameters.map Parameter.quiet) name =
      (findParameter? parameters name).map Parameter.quiet := List.find?_map ..

theorem resolveParameter?_quiet (parameters : List Parameter) (written : Text) :
    resolveParameter? (parameters.map Parameter.quiet) written =
      (resolveParameter? parameters written).map Parameter.quiet := by
  rw [resolveParameter?, resolveParameter?, findParameter?_quiet]
  cases findParameter? parameters written with
  | some exact => rfl
  | none =>
      simp only [Option.map_none]
      split
      · rfl
      · rw [List.filter_map]
        have sameTest : (fun p : Parameter =>
            Text.startsWith (Text.lower p.name) (Text.lower written)) ∘ Parameter.quiet =
          fun p => Text.startsWith (Text.lower p.name) (Text.lower written) := rfl
        rw [sameTest]
        generalize parameters.filter _ = found
        rcases found with _ | ⟨first, _ | ⟨second, rest⟩⟩ <;> rfl

namespace Binding

theorem positionalParameter?_quiet (b : Binding) (index : Int) :
    b.quiet.positionalParameter? index = (b.positionalParameter? index).map Parameter.quiet := by
  have declares : ∀ test : ParameterSet → Bool,
      b.quiet.unbound.find? (fun p => p.sets.any test) =
        (b.unbound.find? fun p => p.sets.any test).map Parameter.quiet :=
    fun test => List.find?_map ..
  have sets : b.quiet.validSets = b.validSets := rfl
  have default : b.quiet.defaultSet = b.defaultSet := rfl
  simp only [positionalParameter?, declares, sets, default]
  cases b.defaultSet with
  | none => simp only [Option.map_or, Option.none_or]
  | some name =>
      simp only
      split <;> simp only [Option.map_or, Option.none_or]

end Binding

namespace Completion

theorem parameterAt?_quiet (b : Binding) (location : ArgumentLocation) :
    parameterAt? b.quiet location = (parameterAt? b location).map Parameter.quiet := by
  have declared : ((b.quiet.command.map (·.parameters)).getD []) =
      ((b.command.map (·.parameters)).getD []).map Parameter.quiet := by
    rw [Binding.quiet]
    cases b.command <;> rfl
  have named : ∀ argument : Argument, b.quiet.boundName? argument = b.boundName? argument :=
    fun _ => rfl
  have succeeded : b.quiet.succeeded = b.succeeded := rfl
  have bound : b.quiet.boundParameters = Assoc.mapValues Parameter.quiet b.boundParameters := rfl
  have byWrittenName : ∀ argument : Argument,
      ((argument.parameter?.bind Node.parameterParts?).bind fun parts =>
        resolveParameter? (((b.command.map (·.parameters)).getD []).map Parameter.quiet) parts.1) =
      ((argument.parameter?.bind Node.parameterParts?).bind fun parts =>
        resolveParameter? ((b.command.map (·.parameters)).getD []) parts.1).map Parameter.quiet := by
    intro argument
    cases argument.parameter?.bind Node.parameterParts? with
    | none => rfl
    | some parts => exact resolveParameter?_quiet _ parts.1
  simp only [parameterAt?, declared, named, succeeded, bound, byWrittenName,
    Binding.positionalParameter?_quiet]
  have looksUp : ∀ name : Option Text,
      name.bind (Assoc.get? (Assoc.mapValues Parameter.quiet b.boundParameters)) =
        (name.bind (Assoc.get? b.boundParameters)).map Parameter.quiet := by
    intro name
    cases name with
    | none => rfl
    | some name => exact Assoc.get?_mapValues Parameter.quiet b.boundParameters name
  simp only [looksUp]
  -- A binding that failed is searched by the written name only.
  split
  · cases location.argument? <;> rfl
  · cases location.argument? with
    | none => cases location <;> rfl
    | some argument =>
        simp only
        cases ((b.boundName? argument).filter (!·.isEmpty)).bind (Assoc.get? b.boundParameters) with
        | some found => rfl
        | none =>
            simp only [Option.map_none]
            split
            · rfl
            · cases location <;> rfl

/-- Adds the parameter of a bound argument that the cursor touches. -/
def addTouched (parameters : Assoc Parameter) (cursor : Int) (found : List Parameter)
    (entry : Text × Argument) : List Parameter :=
  if entry.2.parameter?.any (·.extent.touches cursor) then
    match Assoc.get? parameters entry.1 with
    | some bound => if found.any (·.name == bound.name) then found else found ++ [bound]
    | none => found
  else found

theorem openParameters_eq (b : Binding) (cursor : Int) :
    openParameters b cursor =
      if b.succeeded then b.boundArguments.foldl (addTouched b.boundParameters cursor) b.unbound
      else (b.command.map (·.parameters)).getD [] := rfl

theorem addTouched_quiet (parameters : Assoc Parameter) (cursor : Int) (found : List Parameter)
    (entry : Text × Argument) :
    addTouched (Assoc.mapValues Parameter.quiet parameters) cursor (found.map Parameter.quiet) entry =
      (addTouched parameters cursor found entry).map Parameter.quiet := by
  rw [addTouched, addTouched, Assoc.get?_mapValues]
  split
  · cases Assoc.get? parameters entry.1 with
    | none => rfl
    | some bound =>
        have known : (found.map Parameter.quiet).any (·.name == bound.quiet.name) =
            found.any (·.name == bound.name) := List.any_map
        simp only [Option.map_some, known]
        split
        · rfl
        · rw [List.map_append]
          rfl
  · rfl

theorem openParameters_quiet (b : Binding) (cursor : Int) :
    openParameters b.quiet cursor = (openParameters b cursor).map Parameter.quiet := by
  rw [openParameters_eq, openParameters_eq]
  change (if b.succeeded then _ else _) = _
  split
  · exact List.foldl_hom (List.map Parameter.quiet) fun found entry =>
      addTouched_quiet b.boundParameters cursor found entry
  · rw [Binding.quiet]
    cases b.command <;> rfl

/-- The results that some parameters give: what is shown of a parameter does not tell its completer. -/
def parameterResults (registry : Registry) (word : Text) (pattern : Wildcard.Pattern)
    (parameters : List Parameter) : List Result :=
  (arrangeParameters word (parameters.filterMap (ParameterMatch.of? pattern))).map fun m =>
    Result.of ("-" ++ m.name) .parameterName m.name (parameterToolTip registry m.parameter)

/-- The match of the quiet parameter. -/
def ParameterMatch.quiet (m : ParameterMatch) : ParameterMatch :=
  { m with parameter := m.parameter.quiet }

theorem arrangeParameters_quiet (word : Text) (found : List ParameterMatch) :
    arrangeParameters word (found.map ParameterMatch.quiet) =
      (arrangeParameters word found).map ParameterMatch.quiet := by
  simp only [arrangeParameters, List.filter_map, List.map_append, sortIgnoringCase_map]
  rfl

theorem parameterResults_quiet (registry : Registry) (word : Text) (pattern : Wildcard.Pattern)
    (parameters : List Parameter) :
    parameterResults registry word pattern (parameters.map Parameter.quiet) =
      parameterResults registry word pattern parameters := by
  have matched : (parameters.map Parameter.quiet).filterMap (ParameterMatch.of? pattern) =
      (parameters.filterMap (ParameterMatch.of? pattern)).map ParameterMatch.quiet := by
    rw [List.filterMap_map, List.map_filterMap]
    congr 1
    funext p
    simp only [Function.comp_apply, ParameterMatch.of?, Option.map_map]
    rfl
  rw [parameterResults, parameterResults, matched, arrangeParameters_quiet, List.map_map]
  rfl

/-- Which answer comes first does not depend on completers that fail. -/
theorem firstAnswer?_quiet (request : CompleterRequest) (completers : List ArgumentCompleter) :
    firstAnswer? request (completers.map quietCompleter) = firstAnswer? request completers := by
  induction completers with
  | nil => rfl
  | cons completer rest ih =>
      rw [List.map_cons, firstAnswer?, firstAnswer?, ih, quietCompleter]
      cases completer request <;> rfl

end Completion

end TabCompletion
