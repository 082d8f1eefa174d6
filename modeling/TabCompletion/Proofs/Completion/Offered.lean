import TabCompletion.Paths.Memory
import TabCompletion.Proofs.Engine.Run
import TabCompletion.Proofs.Syntax.Numbering
import TabCompletion.Proofs.Types.Completeness
import TabCompletion.Proofs.Wildcard.Extension

/-!
What is offered matches what was typed. Commands, parameters, variables, types and namespaces are
kept when the typed word, with a star behind it, matches them; the ways in which they are grouped,
sorted and freed of repetitions add nothing to them.
-/

namespace TabCompletion

/-! Lists of results. -/

section Lists

variable {α : Type} {key : α → Text} {items : List α} {item : α}

/-- The keys that were seen and the items that are kept, last first, after one item more. -/
def dedupeStep (key : α → Text) (state : List Text × List α) (item : α) : List Text × List α :=
  if state.1.contains (key item) then state else (key item :: state.1, item :: state.2)

theorem dedupeBy_eq (key : α → Text) (items : List α) :
    dedupeBy key items = (items.foldl (dedupeStep key) ([], [])).2.reverse := rfl

/-- Every key that was seen is the key of an item that is kept. -/
def KeysKept (key : α → Text) (state : List Text × List α) : Prop :=
  ∀ k ∈ state.1, ∃ kept ∈ state.2, key kept = k

section Steps

variable {state : List Text × List α} {kept : α}

theorem mem_of_mem_dedupeStep (isKept : kept ∈ (dedupeStep key state item).2) :
    kept ∈ state.2 ∨ kept = item := by
  rw [dedupeStep] at isKept
  split at isKept
  · exact Or.inl isKept
  · exact (List.mem_cons.mp isKept).symm

theorem keysKept_dedupeStep (keysKept : KeysKept key state) :
    KeysKept key (dedupeStep key state item) := by
  rw [dedupeStep]
  split
  · exact keysKept
  · intro k isSeen
    rcases List.mem_cons.mp isSeen with rfl | earlier
    · exact ⟨item, List.mem_cons_self, rfl⟩
    · obtain ⟨kept, isKept, same⟩ := keysKept k earlier
      exact ⟨kept, List.mem_cons_of_mem _ isKept, same⟩

theorem seen_dedupeStep {k : Text} (isSeen : k ∈ state.1 ∨ key item = k) :
    k ∈ (dedupeStep key state item).1 := by
  rw [dedupeStep]
  split
  next known =>
    rcases isSeen with earlier | rfl
    · exact earlier
    · exact List.contains_iff_mem.mp known
  next => exact List.mem_cons.mpr (isSeen.symm.imp_left Eq.symm)

theorem mem_of_mem_foldl_dedupe (isKept : kept ∈ (items.foldl (dedupeStep key) state).2) :
    kept ∈ state.2 ∨ kept ∈ items := by
  induction items generalizing state with
  | nil => exact Or.inl isKept
  | cons first rest ih =>
      rcases ih isKept with before | later
      · rcases mem_of_mem_dedupeStep before with earlier | rfl
        · exact Or.inl earlier
        · exact Or.inr List.mem_cons_self
      · exact Or.inr (List.mem_cons_of_mem _ later)

theorem exists_mem_foldl_dedupe (keysKept : KeysKept key state) {k : Text}
    (occurs : k ∈ state.1 ∨ ∃ item ∈ items, key item = k) :
    ∃ kept ∈ (items.foldl (dedupeStep key) state).2, key kept = k := by
  induction items generalizing state with
  | nil =>
      rcases occurs with isSeen | ⟨_, impossible, _⟩
      · exact keysKept k isSeen
      · cases impossible
  | cons first rest ih =>
      refine ih (keysKept_dedupeStep keysKept) ?_
      rcases occurs with isSeen | ⟨item, isItem, same⟩
      · exact Or.inl (seen_dedupeStep (Or.inl isSeen))
      · rcases List.mem_cons.mp isItem with rfl | later
        · exact Or.inl (seen_dedupeStep (Or.inr same))
        · exact Or.inr ⟨item, later, same⟩

/-- What is kept has the keys that were seen, each once. -/
theorem foldl_dedupe_distinct (seen : state.1 = state.2.map key) (distinct : state.1.Nodup) :
    ((items.foldl (dedupeStep key) state).2.map key).Nodup := by
  induction items generalizing state with
  | nil => rwa [List.foldl_nil, ← seen]
  | cons first rest ih =>
      rw [List.foldl_cons, dedupeStep]
      split
      · exact ih seen distinct
      · rename_i isNew
        rw [List.contains_iff_mem] at isNew
        exact ih (congrArg _ seen) (List.nodup_cons.mpr ⟨isNew, distinct⟩)

/-- Items with keys of their own that were not seen are all kept. -/
theorem foldl_dedupe_fresh (distinct : (items.map key).Nodup)
    (fresh : ∀ item ∈ items, key item ∉ state.1) :
    (items.foldl (dedupeStep key) state).2 = items.reverse ++ state.2 := by
  induction items generalizing state with
  | nil => rfl
  | cons first rest ih =>
      rw [List.map_cons, List.nodup_cons] at distinct
      have isNew : dedupeStep key state first = (key first :: state.1, first :: state.2) :=
        if_neg (List.contains_iff_mem.not.mpr (fresh first List.mem_cons_self))
      rw [List.foldl_cons, isNew, ih distinct.2, List.reverse_cons, List.append_assoc]
      · rfl
      · intro item isRest known
        rcases List.mem_cons.mp known with same | earlier
        · exact distinct.1 (same ▸ List.mem_map_of_mem isRest)
        · exact fresh item (List.mem_cons_of_mem _ isRest) earlier

theorem foldl_dedupe_extends (key : α → Text) (items : List α) (state : List Text × List α) :
    ∃ newer, (items.foldl (dedupeStep key) state).2 = newer ++ state.2 := by
  induction items generalizing state with
  | nil => exact ⟨[], rfl⟩
  | cons first rest ih =>
      obtain ⟨newer, split⟩ := ih (dedupeStep key state first)
      rw [List.foldl_cons, split, dedupeStep]
      split
      · exact ⟨newer, rfl⟩
      · exact ⟨newer ++ [first], by rw [List.append_assoc]; rfl⟩

end Steps

theorem dedupeBy_distinct (key : α → Text) (items : List α) :
    ((dedupeBy key items).map key).Nodup := by
  rw [dedupeBy_eq, List.map_reverse, List.nodup_reverse]
  exact foldl_dedupe_distinct rfl List.nodup_nil

/-- Items with keys of their own stay at the front. -/
theorem dedupeBy_append (distinct : (items.map key).Nodup) (more : List α) :
    ∃ rest, dedupeBy key (items ++ more) = items ++ rest := by
  obtain ⟨newer, split⟩ :=
    foldl_dedupe_extends key more (items.foldl (dedupeStep key) ([], []))
  refine ⟨newer.reverse, ?_⟩
  rw [dedupeBy_eq, List.foldl_append, split,
    foldl_dedupe_fresh distinct fun _ _ => List.not_mem_nil]
  simp

theorem dedupeBy_of_distinct (distinct : (items.map key).Nodup) : dedupeBy key items = items := by
  rw [dedupeBy_eq, foldl_dedupe_fresh distinct fun _ _ => List.not_mem_nil, List.append_nil,
    List.reverse_reverse]

theorem mem_of_mem_dedupeBy (listed : item ∈ dedupeBy key items) : item ∈ items := by
  rw [dedupeBy_eq, List.mem_reverse] at listed
  exact (mem_of_mem_foldl_dedupe listed).resolve_left List.not_mem_nil

theorem exists_mem_dedupeBy (key : α → Text) (listed : item ∈ items) :
    ∃ kept ∈ dedupeBy key items, key kept = key item := by
  have nothingSeen : KeysKept key (([], []) : List Text × List α) :=
    fun _ impossible => nomatch impossible
  obtain ⟨kept, isKept, same⟩ :=
    exists_mem_foldl_dedupe nothingSeen (Or.inr ⟨item, listed, rfl⟩)
  exact ⟨kept, List.mem_reverse.mpr isKept, same⟩

theorem mem_foldl_dedupe {state : List Text × List α} :
    item ∈ (items.foldl (dedupeStep key) state).2 ↔ item ∈ state.2 ∨
      key item ∉ state.1 ∧ items.find? (fun other => key other == key item) = some item := by
  induction items generalizing state with
  | nil => simp
  | cons first rest ih =>
      rw [List.foldl_cons, ih, dedupeStep]
      by_cases same : key first = key item
      · have isFound : (key first == key item) = true := beq_iff_eq.mpr same
        rw [List.find?_cons, isFound, same]
        by_cases known : key item ∈ state.1
        · simp [known]
        · simp [known, or_comm, eq_comm]
      · -- An item with another key is kept or left out without this one.
        have other : item ≠ first := fun isFirst => same (isFirst ▸ rfl)
        have isMissed : (key first == key item) = false := beq_eq_false_iff_ne.mpr same
        rw [List.find?_cons, isMissed]
        split
        · rfl
        · simp [other, Ne.symm same]

/-- What is kept is the first item with its key. -/
theorem mem_dedupeBy :
    item ∈ dedupeBy key items ↔ items.find? (fun other => key other == key item) = some item := by
  rw [dedupeBy_eq, List.mem_reverse, mem_foldl_dedupe]
  simp

theorem mem_sortIgnoringCase : item ∈ sortIgnoringCase key items ↔ item ∈ items :=
  (sortIgnoringCase_perm key items).mem_iff

theorem mem_sortExactFirst {word : Text} : item ∈ sortExactFirst word key items ↔ item ∈ items := by
  rw [sortExactFirst, List.mem_append, mem_sortIgnoringCase, List.mem_filter, List.mem_filter,
    ← and_or_left]
  refine and_iff_left ?_
  cases isExact : Text.lower (key item) == Text.lower word with
  | true => exact Or.inl rfl
  | false => exact Or.inr (congrArg Bool.not isExact)

/-- A result lists its item if it has one, and its text otherwise. -/
theorem Result.listItem_of (text : Text) (kind : ResultKind) (listed toolTip : Text) :
    (Result.of text kind listed toolTip).listItem = if listed = [] then text else listed := by
  cases listed <;> rfl

theorem Result.listItem_of_filled {text listed toolTip : Text} {kind : ResultKind}
    (filled : listed ≠ []) : (Result.of text kind listed toolTip).listItem = listed := by
  rw [Result.listItem_of, if_neg filled]

theorem Result.toolTip_of_filled {text listed toolTip : Text} (kind : ResultKind)
    (filled : toolTip ≠ []) :
    (Result.of text kind listed toolTip).toolTip = toolTip := by
  cases toolTip with
  | nil => exact absurd rfl filled
  | cons u rest => rfl

end Lists

namespace Completion

open Wildcard

variable {world : World} {state after : EngineState} {c : Context} {results : List Result}

/-! Patterns. -/

theorem run_pattern_ok {source : Text} {pattern : Pattern}
    (compiled : Pattern.compile source = .ok pattern) :
    Engine.run world state (Engine.pattern source) = (.ok pattern, state) := by
  rw [Engine.pattern, compilePattern, compiled]
  rfl

theorem run_pattern {source : Text} {pattern : Pattern}
    (ran : Engine.run world state (Engine.pattern source) = (.ok pattern, after)) :
    Pattern.compile source = .ok pattern ∧ after = state := by
  rw [Engine.pattern, compilePattern] at ran
  cases compiled : Pattern.compile source with
  | ok made =>
      rw [compiled] at ran
      cases ran
      exact ⟨rfl, rfl⟩
  | error error =>
      rw [compiled] at ran
      cases ran

theorem begins_of_run {word : Text} {pattern : Pattern}
    (ran : Engine.run world state (Engine.pattern (word ++ "*")) = (.ok pattern, after))
    {t : Text} (matched : pattern.test t = true) : begins word t = true :=
  begins_iff.mpr ⟨pattern, (run_pattern ran).1, matched⟩

/-! Commands. -/

section Commands

/-- The part of a word that names a command: what its quotes hold and, unless a module is asked for,
what follows the module. -/
def commandWord (options : CommandOptions) (word : Text) : Text :=
  match CommandEntry.nonEmpty options.moduleName with
  | some _ => (Quoting.strip word).2
  | none => (splitModule (Quoting.strip word).2).2

def groupStep (qualified : Bool) (groups : Assoc (List CommandEntry)) (entry : CommandEntry) :
    Assoc (List CommandEntry) :=
  let name := Text.lower (entry.displayName qualified)
  Assoc.set groups name ((Assoc.get? groups name).getD [] ++ [entry])

theorem groupCommands_eq (qualified : Bool) (entries : List CommandEntry) :
    groupCommands qualified entries = entries.foldl (groupStep qualified) [] := rfl

theorem mem_of_mem_groupStep {qualified : Bool} {groups : Assoc (List CommandEntry)}
    {entry other : CommandEntry} {group : List CommandEntry}
    (isGroup : group ∈ Assoc.values (groupStep qualified groups entry)) (inGroup : other ∈ group) :
    (∃ old ∈ Assoc.values groups, other ∈ old) ∨ other = entry := by
  rcases Assoc.mem_values_set isGroup with rfl | earlier
  · rcases List.mem_append.mp inGroup with before | isEntry
    · cases found : Assoc.get? groups (Text.lower (entry.displayName qualified)) with
      | none => simp [found] at before
      | some known =>
          rw [found] at before
          exact Or.inl ⟨known, Assoc.mem_values_of_get? found, before⟩
    · exact Or.inr (List.mem_singleton.mp isEntry)
  · exact Or.inl ⟨group, earlier, inGroup⟩

theorem mem_of_mem_foldl_group {qualified : Bool} {entries : List CommandEntry}
    {groups : Assoc (List CommandEntry)} {entry : CommandEntry} {group : List CommandEntry}
    (isGroup : group ∈ Assoc.values (entries.foldl (groupStep qualified) groups))
    (inGroup : entry ∈ group) :
    (∃ old ∈ Assoc.values groups, entry ∈ old) ∨ entry ∈ entries := by
  induction entries generalizing groups with
  | nil => exact Or.inl ⟨group, isGroup, inGroup⟩
  | cons first rest ih =>
      rcases ih isGroup with ⟨old, isOld, inOld⟩ | later
      · rcases mem_of_mem_groupStep isOld inOld with earlier | rfl
        · exact Or.inl earlier
        · exact Or.inr List.mem_cons_self
      · exact Or.inr (List.mem_cons_of_mem _ later)

theorem mem_of_mem_group {qualified : Bool} {entries group : List CommandEntry}
    {entry : CommandEntry} (isGroup : group ∈ Assoc.values (groupCommands qualified entries))
    (inGroup : entry ∈ group) : entry ∈ entries := by
  rw [groupCommands_eq] at isGroup
  rcases mem_of_mem_foldl_group isGroup inGroup with ⟨_, impossible, _⟩ | isEntry
  · cases impossible
  · exact isEntry

theorem mem_uniqueCommands {entries : List CommandEntry} {qualified addAmpersand : Bool}
    {quote : Quoting.Quote} {r : Result}
    (offered : r ∈ uniqueCommands entries qualified quote addAmpersand) :
    ∃ entry ∈ entries, ∃ text, r = commandResult quote addAmpersand text entry := by
  rcases List.mem_append.mp (mem_of_mem_dedupeBy offered) with isFirst | isHidden
  · obtain ⟨entry, listed, rfl⟩ := List.mem_map.mp isFirst
    obtain ⟨group, isGroup, isHead⟩ := List.mem_filterMap.mp (mem_sortIgnoringCase.mp listed)
    exact ⟨entry, mem_of_mem_group isGroup (List.mem_of_head? isHead), _, rfl⟩
  · obtain ⟨group, isGroup, listed⟩ := List.mem_flatMap.mp isHidden
    obtain ⟨entry, isEntry, made⟩ := List.mem_filterMap.mp listed
    obtain ⟨text, -, rfl⟩ := Option.map_eq_some_iff.mp made
    exact ⟨entry, mem_of_mem_group isGroup (List.mem_of_mem_drop isEntry), text, rfl⟩

theorem name_filled {v : Value} {entry : CommandEntry}
    (described : CommandEntry.ofValue? v = some entry) : entry.name ≠ [] := by
  unfold CommandEntry.ofValue? at described
  split at described
  next name kind isName isKind =>
    cases described
    obtain ⟨-, filled⟩ := Option.filter_eq_some_iff.mp isName
    simpa using filled
  · cases described

theorem commands_begin {options : CommandOptions}
    (ran : Engine.run world state (commands c options) = (.ok results, after)) {r : Result}
    (offered : r ∈ results) : begins (commandWord options c.word) r.listItem = true := by
  rw [commands] at ran
  rcases stripped : Quoting.strip c.word with ⟨quote, value⟩
  simp only [stripped] at ran
  obtain ⟨pattern, middle, compiled, ran⟩ := Engine.run_bind_ok ran
  obtain ⟨values, last, asked, ran⟩ := Engine.run_bind_ok ran
  cases ran
  obtain ⟨entry, listed, text, rfl⟩ := mem_uniqueCommands offered
  obtain ⟨isKnown, matched⟩ := List.mem_filter.mp (List.mem_mergeSort.mp listed)
  obtain ⟨v, -, described⟩ := List.mem_filterMap.mp isKnown
  rw [commandResult, Result.listItem_of_filled (name_filled described), commandWord, stripped]
  cases given : CommandEntry.nonEmpty options.moduleName with
  | none =>
      rw [given] at compiled
      exact begins_of_run compiled matched
  | some moduleName =>
      rw [given] at compiled
      exact begins_of_run compiled matched

end Commands

/-! Parameters. -/

section Parameters

def parameterWord (word : Text) : Text := if Text.startsWith word "-" then word.drop 1 else word

theorem mem_of_mem_arrange {word : Text} {found : List ParameterMatch} {m : ParameterMatch}
    (listed : m ∈ arrangeParameters word found) : m ∈ found := by
  rcases List.mem_append.mp listed with front | common
  · rcases List.mem_append.mp front with exact | own
    · exact List.mem_of_mem_filter exact
    · exact List.mem_of_mem_filter (List.mem_of_mem_filter (mem_sortIgnoringCase.mp own))
  · exact List.mem_of_mem_filter (List.mem_of_mem_filter (mem_sortIgnoringCase.mp common))

theorem parameterMatch_tested {pattern : Pattern} {p : Parameter} {m : ParameterMatch}
    (isMatch : ParameterMatch.of? pattern p = some m) :
    m.name ≠ [] ∧ pattern.test m.name = true := by
  obtain ⟨name, isFound, rfl⟩ := Option.map_eq_some_iff.mp isMatch
  obtain ⟨found, filled⟩ := Option.filter_eq_some_iff.mp isFound
  refine ⟨by simpa using filled, ?_⟩
  split at found
  next tested =>
    cases found
    exact tested
  · exact List.find?_some found

theorem parameters_begin
    (ran : Engine.run world state (parameterNames c) = (.ok results, after)) {r : Result}
    (offered : r ∈ results) : begins (parameterWord c.word) r.listItem = true := by
  rw [parameterNames] at ran
  split at ran
  · cases ran
    cases offered
  next command isCommand =>
    obtain ⟨reader, _, _, ran⟩ := Engine.run_bind_ok ran
    simp only at ran
    cases isBound : (c.binding.or (reader.binder.bind (· command))).filter (·.command.isSome) with
    | none =>
        rw [isBound] at ran
        cases ran
        cases offered
    | some bound =>
        rw [isBound] at ran
        obtain ⟨pattern, middle, compiled, ran⟩ := Engine.run_bind_ok ran
        obtain ⟨registry, last, _, ran⟩ := Engine.run_bind_ok ran
        cases ran
        obtain ⟨m, listed, rfl⟩ := List.mem_map.mp offered
        obtain ⟨p, -, isMatch⟩ := List.mem_filterMap.mp (mem_of_mem_arrange listed)
        obtain ⟨filled, tested⟩ := parameterMatch_tested isMatch
        rw [Result.listItem_of_filled filled]
        exact begins_of_run compiled tested

end Parameters

/-! Variables. -/

section Variables

theorem scriptVariable_filled {path : Text} {typeName : Option Text} {v : VariableCandidate}
    (listed : v ∈ scriptVariable path typeName) : v.name ≠ [] := by
  simp only [scriptVariable] at listed
  split_ifs at listed with isEmpty
  · cases listed
  · rw [List.mem_singleton.mp listed]
    exact fun none => isEmpty (List.isEmpty_iff.mpr none)

theorem ownVariables_filled {cursor : Int} {n : Node} {v : VariableCandidate}
    (listed : v ∈ ownVariables cursor n) : v.name ≠ [] := by
  have ofScript : ∀ {condition : Bool} {path : Text} {typeName : Option Text},
      v ∈ (if condition then [] else scriptVariable path typeName) → v.name ≠ [] := by
    intro condition path typeName listed
    cases condition with
    | true => cases listed
    | false => exact scriptVariable_filled listed
  unfold ownVariables at listed
  split at listed
  · split at listed
    · exact ofScript listed
    · split at listed
      · exact ofScript listed
      · cases listed
    · cases listed
  · exact ofScript listed
  · exact ofScript listed
  · obtain ⟨name, -, isNamed⟩ := List.mem_flatMap.mp listed
    exact scriptVariable_filled isNamed
  · cases listed

theorem variablesWithin_filled {cursor : Int} (n : Node) {v : VariableCandidate}
    (listed : v ∈ variablesWithin cursor n) : v.name ≠ [] := by
  rw [variablesWithin] at listed
  split at listed
  · cases listed
  · rcases List.mem_append.mp listed with own | below
    · exact ownVariables_filled own
    · obtain ⟨⟨child, isChild⟩, -, inChild⟩ := List.mem_flatMap.mp below
      have smaller := Node.sizeOf_child_lt isChild
      simp only at inChild
      split at inChild
      · cases inChild
      · exact variablesWithin_filled child inChild
termination_by sizeOf n

theorem listed_filled {values : List Value} {toolTip : Value → Text → Text} {v : VariableCandidate}
    (listed : v ∈ values.filterMap fun value =>
      ((value.textProperty? "Name").filter (!·.isEmpty)).map fun found =>
        ({ name := found, toolTip := toolTip value found } : VariableCandidate)) : v.name ≠ [] := by
  obtain ⟨value, -, made⟩ := List.mem_filterMap.mp listed
  obtain ⟨name, found, rfl⟩ := Option.map_eq_some_iff.mp made
  simpa using (Option.filter_eq_some_iff.mp found).2

theorem sessionVariables_filled {name : Text} {scope : Option Text}
    {candidates : List VariableCandidate}
    (ran : Engine.run world state (sessionVariables c name scope) = (.ok candidates, after))
    {v : VariableCandidate} (listed : v ∈ candidates) : v.name ≠ [] := by
  obtain ⟨values, _, _, ran⟩ := Engine.run_bind_ok ran
  cases ran
  exact listed_filled listed

theorem driveItems_filled {qualifier : Text} {candidates : List VariableCandidate}
    (ran : Engine.run world state (driveItems c qualifier) = (.ok candidates, after))
    {v : VariableCandidate} (listed : v ∈ candidates) : v.name ≠ [] := by
  obtain ⟨values, _, _, ran⟩ := Engine.run_bind_ok ran
  cases ran
  exact listed_filled listed

theorem specialVariables_filled :
    ∀ name ∈ Language.specialVariables.map Text.ofString, name ≠ [] := by
  decide +kernel

/-- No scope and no drive ends in what could be taken for a star. -/
theorem heads_starless :
    ∀ head ∈ (Language.scopes ++ Language.drives).map Text.ofString,
      StarlessEnd (head.map slash) := by
  have checked : ∀ head ∈ (Language.scopes ++ Language.drives).map Text.ofString,
      ∀ byPoints, ∀ c ∈ [Comparison.exact byPoints, .ignoringCase byPoints],
        ∀ last ∈ (c.view (head.map slash)).getLast?, c.same ('*' : CodeUnit).toNat last = false := by
    decide +kernel
  intro head isHead c front last split
  have isLast : last ∈ (c.view (head.map slash)).getLast? := by
    rw [split]
    exact List.getLast?_concat
  cases c with
  | exact byPoints => exact checked head isHead byPoints _ (by simp) last isLast
  | ignoringCase byPoints => exact checked head isHead byPoints _ (by simp) last isLast

/-- Behind a qualifier stands what the typed name starts. -/
def Qualified (qualifier name item : Text) : Prop :=
  ∃ rest, item = qualifier ++ rest ∧ begins name rest = true

theorem result_qualified {w : VariableWord} {qualifier : Text} {v : VariableCandidate}
    (filled : v.name ≠ []) (starts : begins w.name v.name = true) :
    Qualified qualifier w.name (w.result qualifier v).listItem := by
  refine ⟨v.name, Result.listItem_of_filled ?_, starts⟩
  exact fun none => filled (List.append_eq_nil_iff.mp none).2

theorem qualifiers_qualified {w : VariableWord} {pattern : Pattern}
    (compiled : Pattern.compile (w.name ++ "*") = .ok pattern) {r : Result}
    (offered : r ∈ w.qualifiers pattern) : Qualified [] w.name r.listItem := by
  obtain ⟨head, listed, rfl⟩ := List.mem_map.mp offered
  obtain ⟨isHead, matched⟩ := List.mem_filter.mp listed
  have filled : head ++ Text.ofString ":" ≠ [] := List.concat_ne_nil (':' : CodeUnit) head
  refine ⟨head ++ [(':' : CodeUnit)], Result.listItem_of_filled filled, ?_⟩
  exact begins_colon (begins_iff.mpr ⟨pattern, compiled, matched⟩) (heads_starless head isHead)

/-- Whatever the candidates are, those are offered that match, and what the shell itself has. -/
theorem arranged_qualified {w : VariableWord} {pattern : Pattern}
    (compiled : Pattern.compile (w.name ++ "*") = .ok pattern) {candidates : List VariableCandidate}
    (filled : ∀ v ∈ candidates, v.name ≠ []) {r : Result}
    (offered : r ∈ sortExactFirst (w.qualifier ++ w.name) (·.listItem) (Result.dedupe
      ((candidates.filter fun v => pattern.test v.name).map (w.result w.qualifier) ++
        if w.qualifier.isEmpty then
          ((Language.specialVariables.map Text.ofString).filter pattern.test).map
            (fun name => w.result [] { name, toolTip := name }) ++ w.qualifiers pattern
        else []))) : Qualified w.qualifier w.name r.listItem := by
  have starts : ∀ {t : Text}, pattern.test t = true → begins w.name t = true :=
    fun matched => begins_iff.mpr ⟨pattern, compiled, matched⟩
  rcases List.mem_append.mp (mem_of_mem_dedupeBy (mem_sortExactFirst.mp offered)) with
    isFound | isExtra
  · obtain ⟨v, listed, rfl⟩ := List.mem_map.mp isFound
    obtain ⟨isCandidate, matched⟩ := List.mem_filter.mp listed
    exact result_qualified (filled v isCandidate) (starts matched)
  · split at isExtra
    next unqualified =>
      rw [List.isEmpty_iff.mp unqualified]
      rcases List.mem_append.mp isExtra with isSpecial | isHead
      · obtain ⟨name, listed, rfl⟩ := List.mem_map.mp isSpecial
        obtain ⟨isName, matched⟩ := List.mem_filter.mp listed
        exact result_qualified (specialVariables_filled name isName) (starts matched)
      · exact qualifiers_qualified compiled isHead
    · cases isExtra

theorem variables_begin
    (ran : Engine.run world state (variableNames c) = (.ok results, after)) {r : Result}
    (offered : r ∈ results) :
    Qualified (VariableWord.ofText c.word).qualifier (VariableWord.ofText c.word).name
      r.listItem := by
  rw [variableNames] at ran
  generalize VariableWord.ofText c.word = w at ran ⊢
  obtain ⟨pattern, middle, isPattern, ran⟩ := Engine.run_bind_ok ran
  obtain ⟨compiled, -⟩ := run_pattern isPattern
  simp only at ran
  -- Behind a drive its items are meant, otherwise the variables of the script and of the session.
  split at ran
  · obtain ⟨ofSession, _, asked, ran⟩ := Engine.run_bind_ok ran
    cases ran
    refine arranged_qualified compiled (fun v listed => ?_) offered
    rcases List.mem_append.mp listed with ofScript | isOfSession
    · cases isRoot : c.root? with
      | none =>
          rw [isRoot] at ofScript
          cases ofScript
      | some root =>
          rw [isRoot] at ofScript
          exact variablesWithin_filled root ofScript
    · exact sessionVariables_filled asked isOfSession
  · obtain ⟨items, _, asked, ran⟩ := Engine.run_bind_ok ran
    cases ran
    exact arranged_qualified compiled (fun v listed => driveItems_filled asked listed) offered

end Variables

/-! Types and namespaces. -/

section Types

/-- The catalog that the state holds, if it holds one, is that of its registry. -/
def CatalogCurrent (state : EngineState) : Prop :=
  ∀ made, state.catalog = some made → made = Catalog.ofRegistry state.registry

/-- A word that ends in a star matches a text, but is too long to be taken with one star more. -/
structure Overlong (word t : Text) : Prop where
  ends : word.getLast? = some ('*' : CodeUnit)
  long : maxGlobLength < (toGlob (word ++ "*")).length
  matched : ∃ pattern, Pattern.compile word = .ok pattern ∧ pattern.test t = true

theorem compile_long {p : Text} (long : maxGlobLength < (toGlob p).length) :
    Pattern.compile p = .error .tooLong := by
  rw [Pattern.compile, compileGlob, if_pos long]
  rfl

/-- What a lookup finds by its pattern the word starts, unless it is overlong. -/
theorem begins_or_overlong {word t : Text} {pattern : Pattern}
    (compiled : Pattern.compile (if Text.endsWith word "*" then word else word ++ "*") = .ok pattern)
    (matched : pattern.test t = true) : begins word t = true ∨ Overlong word t := by
  split at compiled
  next isEnd =>
    obtain ⟨front, split⟩ := List.isSuffixOf_iff_suffix.mp isEnd
    have ends : word.getLast? = some ('*' : CodeUnit) := split ▸ word_star_ends front
    -- The word was compiled as it is, and one star more can only widen it.
    by_cases short : (toGlob (word ++ "*")).length ≤ maxGlobLength
    · exact Or.inl (begins_of_test ends short compiled matched)
    · exact Or.inr ⟨ends, Nat.not_le.mp short, pattern, compiled, matched⟩
  next => exact Or.inl (begins_iff.mpr ⟨pattern, compiled, matched⟩)

theorem run_catalog (world : World) (current : CatalogCurrent state) :
    ∃ after, Engine.run world state Engine.catalog =
      (.ok (Catalog.ofRegistry state.registry), after) := by
  simp only [Engine.catalog, Engine.run_bind, Engine.run_get, Engine.goOn_ok]
  cases found : state.catalog with
  | some made => exact ⟨state, current made found ▸ rfl⟩
  | none => exact ⟨_, rfl⟩

theorem run_lookup (world : World) (current : CatalogCurrent state) (word : Text) :
    ∃ after, Engine.run world state (lookupCatalog word) =
      match (Catalog.ofRegistry state.registry).lookup word with
      | .ok found => (.ok found, after)
      | .error error => (.error (.pattern error), after) := by
  obtain ⟨after, ran⟩ := run_catalog world current
  refine ⟨after, ?_⟩
  rw [lookupCatalog, Engine.run_bind, ran, Engine.goOn_ok]
  cases (Catalog.ofRegistry state.registry).lookup word <;> rfl

/-- With a pattern that compiles, the pairs of the catalog are found whose key matches and has the
dots of the word. -/
theorem run_lookup_ok (world : World) (current : CatalogCurrent state) {word : Text}
    {pattern : Pattern} (compiled :
      Pattern.compile (if Text.endsWith word "*" then word else word ++ "*") = .ok pattern) :
    ∃ listed after, Engine.run world state (lookupCatalog word) = (.ok listed, after) ∧
      ∀ pair, pair ∈ listed ↔ pair ∈ (Catalog.ofRegistry state.registry).pairs ∧
        pattern.test pair.1 = true ∧ Catalog.countDots pair.1 = Catalog.countDots word := by
  obtain ⟨after, looked⟩ := run_lookup world current word
  rw [Catalog.lookup_eq (Catalog.ofRegistry_kept _) compiled] at looked
  refine ⟨_, after, looked, fun pair => ?_⟩
  rw [List.mem_filter, Bool.and_eq_true_iff, beq_iff_eq]

/-- Every key of a catalog is filled, and its descriptors come from the registry. -/
theorem pair_source {r : Registry} {pair : Text × Descriptor}
    (listed : pair ∈ (Catalog.ofRegistry r).pairs) :
    pair.1 ≠ [] ∧ ∃ key, Catalog.Source r key pair.2 ∧ Text.lower key = Text.lower pair.1 := by
  obtain ⟨bucket, isBucket, inBucket⟩ := List.mem_flatMap.mp listed
  obtain ⟨entry, isEntry, isPair⟩ := List.mem_flatMap.mp inBucket
  obtain ⟨⟨lowered, _⟩, isKept, rfl⟩ := List.mem_map.mp isEntry
  obtain ⟨d, isListed, rfl⟩ := List.mem_map.mp isPair
  obtain ⟨n, isThere⟩ := List.mem_iff_getElem?.mp isBucket
  have isNumbered : (Catalog.ofRegistry r).bucket n = bucket := by
    rw [Catalog.bucket, isThere]
    rfl
  rw [← isNumbered] at isKept
  have kept := (Catalog.ofRegistry_kept r n).entries _ _ isKept
  obtain ⟨key, source, lowers⟩ := Catalog.ofRegistry_stems r n _ _ isKept d isListed
  exact ⟨kept.filled, key, source, lowers.trans kept.stored⟩

theorem mem_lookup (current : CatalogCurrent state) {word : Text}
    {listed : List (Text × Descriptor)}
    (ran : Engine.run world state (lookupCatalog word) = (.ok listed, after))
    {pair : Text × Descriptor} (isListed : pair ∈ listed) :
    pair ∈ (Catalog.ofRegistry state.registry).pairs ∧
      (begins word pair.1 = true ∨ Overlong word pair.1) := by
  cases compiled : Pattern.compile (if Text.endsWith word "*" then word else word ++ "*") with
  | ok pattern =>
      obtain ⟨found, _, looked, isFound⟩ := run_lookup_ok world current compiled
      rw [ran] at looked
      cases looked
      obtain ⟨isPair, matched, -⟩ := (isFound pair).mp isListed
      exact ⟨isPair, begins_or_overlong compiled matched⟩
  | error error =>
      -- The pattern is not even compiled where no key has the dots of the word.
      obtain ⟨_, looked⟩ := run_lookup world current word
      rw [ran, Catalog.lookup] at looked
      cases isBucket : (Catalog.ofRegistry state.registry).buckets[Catalog.countDots word]? with
      | none =>
          rw [isBucket] at looked
          cases looked
          cases isListed
      | some bucket =>
          rw [isBucket, compiled] at looked
          cases looked

theorem namespaces_fit (current : CatalogCurrent state)
    (ran : Engine.run world state (namespaces c) = (.ok results, after)) {r : Result}
    (offered : r ∈ results) :
    begins c.word r.listItem = true ∨ Overlong c.word r.listItem := by
  obtain ⟨listed, middle, looked, ran⟩ := Engine.run_bind_ok ran
  cases ran
  obtain ⟨⟨key, d⟩, isListed, made⟩ :=
    List.mem_filterMap.mp (mem_of_mem_dedupeBy (mem_sortExactFirst.mp offered))
  obtain ⟨isPair, fits⟩ := mem_lookup current looked isListed
  cases d with
  | nameSpace name =>
      cases made
      rw [Result.listItem_of_filled (pair_source isPair).1]
      exact fits
  | type | genericType | typeName => cases made

theorem descriptorResult_listItem {used : List Text} {before behind key : Text} (filled : key ≠ [])
    (d : Descriptor) : (descriptorResult used before behind key d).listItem = key := by
  cases d <;> exact Result.listItem_of_filled filled

/-- A class without a name is listed as what stands around the name. The word starts the empty name,
but where that text is a dot text, no wildcard at the start of a pattern stands for it. -/
structure NamelessDots (c : Context) (before behind item : Text) : Prop where
  defined : ∃ root n, c.root? = some root ∧ n ∈ root.preorder ∧ n.kind = .typeDefinition ∧
    n.className = []
  around : item = before ++ behind
  dots : isDots item = true
  starts : begins c.word [] = true

theorem definedTypes_fit {before behind : Text} {root : Node} (isRoot : c.root? = some root)
    (ran : Engine.run world state (definedTypes c.word before behind root) = (.ok results, after))
    {r : Result} (offered : r ∈ results) :
    begins c.word r.listItem = true ∨ NamelessDots c before behind r.listItem := by
  obtain ⟨pattern, middle, compiled, ran⟩ := Engine.run_bind_ok ran
  cases ran
  obtain ⟨n, listed, rfl⟩ := List.mem_map.mp offered
  obtain ⟨isNode, isDefinition⟩ := List.mem_filter.mp listed
  obtain ⟨isType, matched⟩ := Bool.and_eq_true_iff.mp isDefinition
  have starts := begins_of_run compiled matched
  rw [Result.listItem_of]
  split
  next nameless =>
    -- A word that starts the empty name starts all texts but the dot texts.
    rw [nameless] at starts ⊢
    rw [List.append_nil]
    cases dots : isDots (before ++ behind) with
    | false => exact Or.inl (begins_of_begins_nil starts dots)
    | true =>
        exact Or.inr ⟨⟨root, n, isRoot, isNode, eq_of_beq isType, nameless⟩, rfl, dots, starts⟩
  next => exact Or.inl starts

theorem types_fit (current : CatalogCurrent state) {before behind : Text}
    (ran : Engine.run world state (typeNames c before behind) = (.ok results, after)) {r : Result}
    (offered : r ∈ results) :
    begins c.word r.listItem = true ∨ (c.root? = none ∧ Overlong c.word r.listItem) ∨
      NamelessDots c before behind r.listItem := by
  obtain ⟨listed, middle, looked, ran⟩ := Engine.run_bind_ok ran
  have known : ∀ r ∈ listed.map fun pair =>
        descriptorResult (usedNamespaces c.root?) before behind pair.1 pair.2,
      begins c.word r.listItem = true ∨ Overlong c.word r.listItem := by
    intro r isKnown
    obtain ⟨⟨key, d⟩, isListed, rfl⟩ := List.mem_map.mp isKnown
    obtain ⟨isPair, fits⟩ := mem_lookup current looked isListed
    rw [descriptorResult_listItem (pair_source isPair).1]
    exact fits
  cases isRoot : c.root? with
  | none =>
      rw [isRoot] at ran known
      cases ran
      rcases List.mem_append.mp (mem_of_mem_dedupeBy (mem_sortExactFirst.mp offered)) with
        isKnown | isDefined
      · exact (known r isKnown).imp_right fun overlong => Or.inl ⟨rfl, overlong⟩
      · cases isDefined
  | some root =>
      rw [isRoot] at ran known
      obtain ⟨defined, _, found, ran⟩ := Engine.run_bind_ok ran
      cases ran
      rcases List.mem_append.mp (mem_of_mem_dedupeBy (mem_sortExactFirst.mp offered)) with
        isKnown | isDefined
      · refine (known r isKnown).imp_right fun overlong => ?_
        -- The classes of the script were compared with the word and one star more.
        obtain ⟨pattern, _, compiled, -⟩ := Engine.run_bind_ok found
        have refused := compile_long overlong.long
        rw [(run_pattern compiled).1] at refused
        cases refused
      · exact (definedTypes_fit isRoot found isDefined).imp_right Or.inr

end Types

/-! Everything that is offered. -/

section Matches

/-- All that a completion lists when it gives an answer is so. -/
def Lists (world : World) (state : EngineState) (completion : Engine (List Result))
    (fits : Text → Prop) : Prop :=
  ∀ results after, Engine.run world state completion = (.ok results, after) →
    ∀ r ∈ results, fits r.listItem

/-- What was typed starts everything that is offered. Commands are compared without quotes and
without a module, parameters without their dash, and variables behind their qualifier. A word for a
type or a namespace that already ends in a star is not given another, so at the greatest length it
matches although it could not have one star more; and a class without a name is listed as what
stands around the name, which a wildcard does not match when it is a dot text. -/
theorem offers_match_the_word (world : World) (state : EngineState)
    (current : CatalogCurrent state) (c : Context) :
    (∀ options, Lists world state (commands c options) fun item =>
      begins (commandWord options c.word) item = true) ∧
    (Lists world state (parameterNames c) fun item =>
      begins (parameterWord c.word) item = true) ∧
    (Lists world state (variableNames c) fun item =>
      let typed := VariableWord.ofText c.word
      Qualified typed.qualifier typed.name item) ∧
    (∀ before behind, Lists world state (typeNames c before behind) fun item =>
      begins c.word item = true ∨ (c.root? = none ∧ Overlong c.word item) ∨
        NamelessDots c before behind item) ∧
    Lists world state (namespaces c) fun item =>
      begins c.word item = true ∨ Overlong c.word item := by
  refine ⟨fun options => ?_, ?_, ?_, fun before behind => ?_, ?_⟩
  · exact fun results after ran r offered => commands_begin ran offered
  · exact fun results after ran r offered => parameters_begin ran offered
  · exact fun results after ran r offered => variables_begin ran offered
  · exact fun results after ran r offered => types_fit current ran offered
  · exact fun results after ran r offered => namespaces_fit current ran offered

/-- A world with nothing but an empty file system. -/
def bareWorld : World := { paths := MemoryPaths.provider [] "/" "/" [] }

/-- What a completion lists, if it gives an answer. -/
def listItems (answer : Except Failure (List Result)) : Option (List Text) :=
  answer.toOption.map (·.map Result.listItem)

theorem scope_is_listed :
    let c := Context.ofWord "$gl" none
    listItems (Engine.run bareWorld {} (variableNames c)).1 = some [Text.ofString "global:"] ∧
      Lists bareWorld {} (variableNames c) fun item =>
        let typed := VariableWord.ofText c.word
        Qualified typed.qualifier typed.name item := by
  intro c
  have current : CatalogCurrent {} := fun _ made => nomatch made
  exact ⟨by decide +kernel, (offers_match_the_word bareWorld {} current c).2.2.1⟩

end Matches

/-! Names that are listed although they do not match. -/

section Unmatched

theorem starRun_succ (n : Nat) : starRun (n + 1) = starRun n ++ Text.ofString "*" :=
  List.replicate_succ'

theorem starRun_ends (n : Nat) : (starRun n).getLast? = some ('*' : CodeUnit) := by
  rw [starRun, List.replicate_succ', List.getLast?_concat]

theorem toGlob_starRun (n : Nat) : toGlob (starRun n) = starRun n := by
  induction n with
  | zero => rfl
  | succ n ih =>
      have longer : toGlob (starRun n ++ Text.ofString "*") =
          toGlob (starRun n) ++ Text.ofString "*" := toGlob_star (starRun_ends n)
      rw [starRun_succ, longer, ih]

/-- Stars match what one star matches, as many as a pattern may have. -/
theorem starRun_test {n : Nat} (short : n < maxGlobLength) {t : Text}
    (starts : begins [] t = true) :
    ∃ pattern, Pattern.compile (starRun n) = .ok pattern ∧ pattern.test t = true := by
  induction n with
  | zero => exact begins_iff.mp starts
  | succ n ih =>
      obtain ⟨pattern, compiled, matched⟩ := ih (Nat.lt_of_succ_lt short)
      rw [starRun_succ]
      refine begins_iff.mp (begins_of_test (starRun_ends n) ?_ compiled matched)
      rw [← starRun_succ, toGlob_starRun, starRun, List.length_replicate]
      exact short

def starWord : Text := starRun 65535

theorem starWord_begins_nothing (t : Text) : begins starWord t = false := by
  have long : maxGlobLength < (toGlob (starWord ++ "*")).length := by
    rw [starWord, ← starRun_succ, toGlob_starRun, starRun, List.length_replicate]
    exact Nat.lt_succ_self _
  rw [begins, compile_long long]

/-- The empty word starts every name that is neither empty nor dots. -/
theorem begins_of_filled {t : Text} (filled : t ≠ []) (other : isDots t = false) :
    begins [] t = true := by
  have compiled : Pattern.compile ([] ++ Text.ofString "*") = .ok ⟨"*", .anything⟩ := rfl
  refine begins_iff.mpr ⟨_, compiled, ?_⟩
  rw [(compile_iff compiled).2, Matcher.test, isDots_slashed, other]
  simpa using filled

theorem begins_of_dotless {t : Text} (filled : t ≠ []) (dotless : Catalog.countDots t = 0) :
    begins [] t = true := by
  refine begins_of_filled filled (Bool.eq_false_iff.mpr fun dots => ?_)
  rcases isDots_iff.mp dots with rfl | rfl <;> cases dotless

/-- A namespace `N` with one type. -/
def onlyType : TypeModel := { fullName := "N.T", kind := .cls }

/-- A fresh engine that is told of the type. -/
def told : EngineState := (Engine.run bareWorld {} (Engine.addType onlyType)).2

theorem told_current : CatalogCurrent told := fun _ made => nomatch made

theorem mem_addType (r : Registry) (model : TypeModel) : model ∈ (r.addType model).allTypes := by
  have found : Assoc.get? (r.addType model).types (Text.lower model.fullName) = some model := by
    rw [Registry.addType, Assoc.get?_set, if_pos rfl]
  exact Assoc.mem_values_of_get? found

theorem namespace_found (r : Registry) :
    ∃ key name, (key, .nameSpace name) ∈ (Catalog.ofRegistry (r.addType onlyType)).pairs ∧
      Catalog.countDots key = 0 := by
  have visible : Catalog.Visible (r.addType onlyType) onlyType :=
    ⟨mem_addType r onlyType, fun hidden => nomatch hidden⟩
  have leading : Catalog.IsLeading "N"
      (TypeName.namespaceOf (Catalog.Listing.ofModel onlyType).name) := Or.inl (by decide +kernel)
  obtain ⟨entry, found, d, listed, name, rfl, -⟩ :=
    Catalog.nameSpace_held (.model onlyType visible) (by decide) leading
  have isEntry := (Assoc.get?_eq_some_iff (Catalog.ofRegistry_kept _ _).keys).mp found
  have kept := (Catalog.ofRegistry_kept _ _).entries _ _ isEntry
  refine ⟨entry.key, name, ?_, kept.dots⟩
  rw [Catalog.bucket] at isEntry
  cases isBucket : (Catalog.ofRegistry (r.addType onlyType)).buckets[Catalog.countDots "N"]? with
  | none =>
      rw [isBucket] at isEntry
      cases isEntry
  | some bucket =>
      rw [isBucket] at isEntry
      refine List.mem_flatMap.mpr ⟨bucket, List.mem_of_getElem? isBucket, ?_⟩
      exact List.mem_flatMap.mpr ⟨entry, List.mem_map_of_mem isEntry, List.mem_map_of_mem listed⟩

theorem namespace_listed {listed : List (Text × Descriptor)} {key name : Text}
    (isListed : (key, .nameSpace name) ∈ listed) :
    Result.of name .nameSpace key ("Namespace " ++ name) ∈ listed.filterMap fun (key, d) =>
      match d with
      | .nameSpace name => some (Result.of name .nameSpace key ("Namespace " ++ name))
      | _ => none :=
  List.mem_filterMap.mpr ⟨_, isListed, rfl⟩

theorem namespace_offered {listed : List (Text × Descriptor)} {key name : Text}
    (looked : Engine.run world state (lookupCatalog c.word) = (.ok listed, after))
    (isListed : (key, .nameSpace name) ∈ listed) :
    ∃ results, Engine.run world state (namespaces c) = (.ok results, after) ∧
      ∃ r, r ∈ results := by
  refine ⟨_, by rw [namespaces, Engine.run_bind, looked]; rfl, ?_⟩
  obtain ⟨r, isKept, -⟩ :=
    exists_mem_dedupeBy (fun r => Text.lower r.text) (namespace_listed isListed)
  exact ⟨r, mem_sortExactFirst.mpr isKept⟩

theorem starRun_offers {n : Nat} (short : n < maxGlobLength) :
    ∃ results after, Engine.run bareWorld told (namespaces (.ofWord (starRun n) none)) =
      (.ok results, after) ∧ ∃ r, r ∈ results := by
  obtain ⟨key, name, isPair, dotless⟩ := namespace_found Registry.bundled
  obtain ⟨pattern, compiled, matched⟩ :=
    starRun_test short (begins_of_dotless (pair_source isPair).1 dotless)
  obtain ⟨front, split⟩ := List.getLast?_eq_some_iff.mp (starRun_ends n)
  have unstarred : (if Text.endsWith (starRun n) "*" then starRun n
      else starRun n ++ Text.ofString "*") = starRun n :=
    if_pos (List.isSuffixOf_iff_suffix.mpr ⟨front, split.symm⟩)
  have noDots : Catalog.countDots (starRun n) = 0 := by
    simp [Catalog.countDots, starRun, List.countP_replicate]
  obtain ⟨listed, after, looked, isListed⟩ :=
    run_lookup_ok bareWorld told_current (unstarred ▸ compiled)
  obtain ⟨results, ran, offered⟩ := namespace_offered (c := .ofWord (starRun n) none) looked
    ((isListed _).mpr ⟨isPair, matched, dotless.trans noDots.symm⟩)
  exact ⟨results, after, ran, offered⟩

theorem stars_list_namespaces :
    ¬Lists bareWorld told (namespaces (.ofWord starWord none)) fun item =>
      begins starWord item = true := by
  intro allMatch
  obtain ⟨results, after, ran, r, offered⟩ := starRun_offers (Nat.lt_succ_self 65535)
  have impossible := allMatch results after ran r offered
  simp only [starWord_begins_nothing] at impossible
  cases impossible

def namelessClass : Node := .mk 1 ⟨0, 5, "class"⟩ (.typeDefinition [] true false [] [])

def namelessRoot : Node := .mk 0 ⟨0, 5, "class"⟩ (.scriptBlock none [] [namelessClass])

def namelessContext : Context :=
  { script := Script.ofTree "class" namelessRoot, word := "*\x60|x.........", cursor := 5
    related := [namelessRoot] }

theorem named_text {name : Text} {d : Descriptor} (named : Catalog.Named name d)
    (before behind listed : Text) :
    (descriptorResult [] before behind listed d).text = before ++ name ++ behind := by
  cases named <;> rfl

/-- The text that a described name is completed to has the dots of the name. -/
theorem descriptorResult_dots {r : Registry} {key : Text} {d : Descriptor}
    (source : Catalog.Source r key d) (dotted : 0 < Catalog.countDots key)
    (before behind listed : Text) :
    Catalog.countDots before + Catalog.countDots key ≤
      Catalog.countDots (descriptorResult [] before behind listed d).text := by
  have counted : ∀ s t : Text,
      Catalog.countDots (s ++ t) = Catalog.countDots s + Catalog.countDots t :=
    fun s t => List.countP_append
  cases source with
  | accelerator _ target isAccelerator =>
      have isText : (descriptorResult [] before behind listed
          (.type target (some key))).text = before ++ key ++ behind := rfl
      rw [isText, counted, counted]
      omega
  | whole l isListed =>
      rw [named_text isListed.named, counted, counted]
      omega
  | short l isListed hasShortName =>
      rw [Catalog.shortName_dots] at dotted
      omega
  | nameSpace l isListed _ leading => exact Nat.le_of_eq (counted before key).symm

theorem nameless_defined {pattern : Pattern}
    (compiled : Pattern.compile (namelessContext.word ++ "*") = .ok pattern)
    (matched : pattern.test [] = true) (state : EngineState) :
    Engine.run bareWorld state (definedTypes namelessContext.word "." [] namelessRoot) =
      (.ok [Result.of "." .type [] "class "], state) := by
  have nodes : namelessRoot.preorder = [namelessRoot, namelessClass] := by
    simp [Node.preorder_eq, namelessRoot, namelessClass, Node.children, Node.form, Form.children]
  have chosen : (namelessRoot.preorder.filter fun n =>
      n.kind == .typeDefinition && pattern.test n.className) = [namelessClass] := by
    rw [nodes, List.filter_cons_of_neg Bool.false_ne_true, List.filter_cons_of_pos, List.filter_nil]
    exact matched
  rw [definedTypes, Engine.run_bind, run_pattern_ok compiled, Engine.goOn_ok, Engine.run_pure,
    chosen]
  rfl

/-- The class stands behind names of the catalog that have the nine dots of the word. -/
theorem nameless_run :
    ∃ listed : List (Text × Descriptor), ∃ after,
      (∀ pair ∈ listed, pair ∈ (Catalog.ofRegistry told.registry).pairs ∧
        Catalog.countDots pair.1 = 9) ∧
      Engine.run bareWorld told (typeNames namelessContext "." []) =
        (.ok (sortExactFirst namelessContext.word (·.listItem) (Result.dedupe
          (listed.map (fun (key, d) => descriptorResult [] "." [] key d) ++
            [Result.of "." .type [] "class "]))), after) := by
  have starts : begins namelessContext.word [] = true := by decide +kernel
  obtain ⟨pattern, compiled, matched⟩ := begins_iff.mp starts
  have starless : (if Text.endsWith namelessContext.word "*" then namelessContext.word
      else namelessContext.word ++ Text.ofString "*") =
        namelessContext.word ++ Text.ofString "*" := if_neg (by decide)
  obtain ⟨listed, after, looked, isListed⟩ :=
    run_lookup_ok bareWorld told_current (starless ▸ compiled)
  refine ⟨listed, after, fun pair found => ?_, ?_⟩
  · obtain ⟨isPair, -, dots⟩ := (isListed pair).mp found
    exact ⟨isPair, dots⟩
  · rw [typeNames, Engine.run_bind, looked, Engine.goOn_ok]
    change Engine.run bareWorld after
      (definedTypes namelessContext.word "." [] namelessRoot >>= _) = _
    rw [Engine.run_bind, nameless_defined compiled matched]
    rfl

theorem dots_list_classes :
    ¬Lists bareWorld told (typeNames namelessContext "." []) fun item =>
      begins namelessContext.word item = true := by
  intro allMatch
  obtain ⟨listed, after, dotted, ran⟩ := nameless_run
  obtain ⟨r, isKept, same⟩ := exists_mem_dedupeBy (fun r => Text.lower r.text)
    (List.mem_append_right (listed.map fun (key, d) => descriptorResult [] "." [] key d)
      (List.mem_singleton_self (Result.of "." .type [] "class ")))
  have isMatch := allMatch _ _ ran r (mem_sortExactFirst.mpr isKept)
  rcases List.mem_append.mp (mem_of_mem_dedupeBy isKept) with isKnown | isClass
  · -- With so many dots nothing else is completed to a single one.
    obtain ⟨⟨key, d⟩, isListed, rfl⟩ := List.mem_map.mp isKnown
    obtain ⟨isPair, nine⟩ := dotted _ isListed
    obtain ⟨-, other, source, lowered⟩ := pair_source isPair
    have dots : Catalog.countDots other = 9 := (Catalog.countDots_of_lower lowered).trans nine
    have counted := descriptorResult_dots source (by omega) "." [] key
    rw [Catalog.countDots_of_lower same, dots] at counted
    exact absurd counted (by decide)
  · rw [List.mem_singleton.mp isClass] at isMatch
    have differs : begins namelessContext.word "." = false := by decide +kernel
    rw [Result.listItem_of, if_pos rfl, differs] at isMatch
    cases isMatch

/-- Not all that is listed matches the word and one star more. -/
theorem unmatched_names_are_listed :
    CatalogCurrent told ∧
      (¬Lists bareWorld told (namespaces (.ofWord starWord none)) fun item =>
        begins starWord item = true) ∧
      ¬Lists bareWorld told (typeNames namelessContext "." []) fun item =>
        begins namelessContext.word item = true :=
  ⟨told_current, stars_list_namespaces, dots_list_classes⟩

end Unmatched

end Completion
end TabCompletion
