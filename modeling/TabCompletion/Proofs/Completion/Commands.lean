import TabCompletion.Proofs.Completion.Offered
import TabCompletion.Proofs.Quoting.Lowering

/-!
The list of commands. Of the commands with one name the one that would run is listed under that
name, by name and ahead of all others, and every command behind it stays within reach by its module
or its path. Texts that are completed to differ by more than letter case, and quoting a name brings
no two of them together.
-/

namespace TabCompletion.Completion

open Wildcard

/-! Groups of one name. -/

section Groups

variable {qualified : Bool} {entries : List CommandEntry} {entry : CommandEntry}

/-- The name under which an entry is listed, without letter case. -/
def nameKey (qualified : Bool) (entry : CommandEntry) : Text := Text.lower (entry.displayName qualified)

/-- The entries of one name, in order. -/
def sharing (qualified : Bool) (key : Text) (entries : List CommandEntry) : List CommandEntry :=
  entries.filter fun entry => nameKey qualified entry == key

theorem sharing_concat (key : Text) (earlier : List CommandEntry) (last : CommandEntry) :
    sharing qualified key (earlier ++ [last]) =
      if key = nameKey qualified last then sharing qualified key earlier ++ [last]
      else sharing qualified key earlier := by
  by_cases same : key = nameKey qualified last
  · simp [sharing, same]
  · simp [sharing, same, Ne.symm same]

theorem groupCommands_concat (earlier : List CommandEntry) (last : CommandEntry) :
    groupCommands qualified (earlier ++ [last]) =
      Assoc.set (groupCommands qualified earlier) (nameKey qualified last)
        ((Assoc.get? (groupCommands qualified earlier) (nameKey qualified last)).getD [] ++ [last]) := by
  rw [groupCommands_eq, groupCommands_eq, List.foldl_append]
  rfl

theorem get?_groupCommands (key : Text) :
    Assoc.get? (groupCommands qualified entries) key =
      if sharing qualified key entries = [] then none else some (sharing qualified key entries) := by
  induction entries using List.reverseRecOn with
  | nil => rfl
  | append_singleton earlier last ih =>
      rw [groupCommands_concat, Assoc.get?_set, sharing_concat]
      by_cases same : key = nameKey qualified last
      · subst same
        rw [if_pos rfl, if_pos rfl, if_neg (by simp), ih]
        split
        · rename_i none
          rw [none]
          rfl
        · rfl
      · rw [if_neg same, if_neg same, ih]

theorem groupCommands_distinct (qualified : Bool) (entries : List CommandEntry) :
    ((groupCommands qualified entries).map Prod.fst).Nodup := by
  induction entries using List.reverseRecOn with
  | nil => exact List.nodup_nil
  | append_singleton earlier last ih =>
      rw [groupCommands_concat]
      exact Assoc.keys_set_nodup ih _ _

/-- The groups are the entries of each name that occurs. -/
theorem mem_groupCommands {key : Text} {group : List CommandEntry} :
    (key, group) ∈ groupCommands qualified entries ↔
      sharing qualified key entries = group ∧ group ≠ [] := by
  rw [← Assoc.get?_eq_some_iff (groupCommands_distinct qualified entries), get?_groupCommands]
  split
  · rename_i none
    simp only [reduceCtorEq, false_iff, not_and, not_not]
    exact fun same => same.symm.trans none
  · rename_i some
    rw [Option.some.injEq]
    exact ⟨fun same => ⟨same, same ▸ some⟩, And.left⟩

theorem nameKey_of_sharing {key : Text} (listed : entry ∈ sharing qualified key entries) :
    nameKey qualified entry = key := by
  simpa using (List.mem_filter.mp listed).2

end Groups

/-! The commands that would run. -/

section Winners

variable {qualified : Bool} {entries : List CommandEntry} {entry winner : CommandEntry}

/-- The first entry of each name, by name. -/
def winners (qualified : Bool) (entries : List CommandEntry) : List CommandEntry :=
  sortIgnoringCase (·.displayName qualified)
    ((Assoc.values (groupCommands qualified entries)).filterMap List.head?)

theorem mem_winners :
    winner ∈ winners qualified entries ↔
      (sharing qualified (nameKey qualified winner) entries).head? = some winner := by
  rw [winners, mem_sortIgnoringCase, List.mem_filterMap]
  constructor
  · rintro ⟨group, isGroup, isFirst⟩
    obtain ⟨⟨key, _⟩, listed, rfl⟩ := List.mem_map.mp isGroup
    obtain ⟨rfl, -⟩ := mem_groupCommands.mp listed
    rwa [nameKey_of_sharing (List.mem_of_head? isFirst)]
  · intro isFirst
    refine ⟨_, List.mem_map_of_mem (mem_groupCommands.mpr ⟨rfl, ?_⟩), isFirst⟩
    exact List.ne_nil_of_mem (List.mem_of_head? isFirst)

/-- Every group gives one winner, which has the name of the group. -/
theorem keys_of_heads {groups : Assoc (List CommandEntry)}
    (named : ∀ group ∈ groups, group.2 ≠ [] ∧ ∀ entry ∈ group.2, nameKey qualified entry = group.1) :
    ((Assoc.values groups).filterMap List.head?).map (nameKey qualified) = groups.map Prod.fst := by
  induction groups with
  | nil => rfl
  | cons group rest ih =>
      obtain ⟨filled, ofName⟩ := named group List.mem_cons_self
      obtain ⟨first, more, split⟩ := List.exists_cons_of_ne_nil filled
      have later := ih fun group isRest => named group (List.mem_cons_of_mem _ isRest)
      have isName := ofName first (split ▸ List.mem_cons_self)
      simp only [Assoc.values, List.map_cons, split, List.filterMap_cons, List.head?_cons] at later ⊢
      rw [isName, later]

theorem winners_distinct (qualified : Bool) (entries : List CommandEntry) :
    ((winners qualified entries).map (nameKey qualified)).Nodup := by
  have keys : ((Assoc.values (groupCommands qualified entries)).filterMap List.head?).map
      (nameKey qualified) = (groupCommands qualified entries).map Prod.fst := by
    refine keys_of_heads fun group listed => ?_
    obtain ⟨same, filled⟩ := mem_groupCommands.mp listed
    exact ⟨filled, fun entry isEntry => nameKey_of_sharing (same ▸ isEntry)⟩
  rw [winners, ((sortIgnoringCase_perm _ _).map _).nodup_iff, keys]
  exact groupCommands_distinct qualified entries

theorem winners_ascending (qualified : Bool) (entries : List CommandEntry) :
    (winners qualified entries).Pairwise fun a b =>
      Text.compare (nameKey qualified a) (nameKey qualified b) = .lt := by
  have differ := List.pairwise_map.mp (winners_distinct qualified entries)
  exact ((sortIgnoringCase_ordered _ _).and differ).imp fun both => both.1.lt_of_ne both.2

theorem exists_winner (listed : entry ∈ entries) :
    ∃ winner ∈ winners qualified entries, nameKey qualified winner = nameKey qualified entry := by
  have shares : entry ∈ sharing qualified (nameKey qualified entry) entries := by
    simp [sharing, listed]
  obtain ⟨winner, more, split⟩ := List.exists_cons_of_ne_nil (List.ne_nil_of_mem shares)
  have isFirst : (sharing qualified (nameKey qualified entry) entries).head? = some winner := by
    rw [split]
    rfl
  have sameName := nameKey_of_sharing (List.mem_of_head? isFirst)
  exact ⟨winner, mem_winners.mpr (sameName ▸ isFirst), sameName⟩

/-- Among entries in order of precedence the winner is one that runs first. -/
theorem winner_precedes (ranked : entries.Pairwise fun a b => a.kind.precedence ≤ b.kind.precedence)
    (isWinner : winner ∈ winners qualified entries) (listed : entry ∈ entries)
    (sameName : nameKey qualified entry = nameKey qualified winner) :
    winner.kind.precedence ≤ entry.kind.precedence := by
  have shares : entry ∈ sharing qualified (nameKey qualified winner) entries := by
    simp [sharing, listed, sameName]
  have inOrder : (sharing qualified (nameKey qualified winner) entries).Pairwise
      fun a b => a.kind.precedence ≤ b.kind.precedence := ranked.filter _
  obtain ⟨more, split⟩ := List.head?_eq_some_iff.mp (mem_winners.mp isWinner)
  rw [split] at shares inOrder
  rcases List.mem_cons.mp shares with rfl | later
  · exact Nat.le_refl _
  · exact (List.pairwise_cons.mp inOrder).1 entry later

end Winners

/-! What is listed. -/

section Listed

variable {qualified addAmpersand : Bool} {quote : Quoting.Quote} {entries : List CommandEntry}

/-- An entry of which every text that is there says something. -/
structure Filled (entry : CommandEntry) : Prop where
  name : entry.name ≠ []
  definition : ∀ text, entry.definition = some text → text ≠ []

theorem filled_of_described {v : Value} {entry : CommandEntry}
    (described : CommandEntry.ofValue? v = some entry) : Filled entry := by
  refine ⟨name_filled described, fun text isText => ?_⟩
  unfold CommandEntry.ofValue? at described
  split at described
  · cases described
    simpa using (Option.filter_eq_some_iff.mp isText).2
  · cases described

theorem Filled.toolTip {entry : CommandEntry} (filled : Filled entry) :
    entry.toolTip ≠ [] := by
  rw [CommandEntry.toolTip]
  split
  · exact fun none => filled.name (List.append_eq_nil_iff.mp (List.append_eq_nil_iff.mp none).1).1
  · cases isText : entry.definition with
    | none => exact filled.name
    | some text => exact filled.definition text isText

def winnerResult (qualified : Bool) (quote : Quoting.Quote) (addAmpersand : Bool)
    (winner : CommandEntry) : Result :=
  commandResult quote addAmpersand (winner.displayName qualified) winner

/-- The results of the entries that a group has behind its first. -/
def detours (quote : Quoting.Quote) (addAmpersand : Bool) (group : List CommandEntry) : List Result :=
  (group.drop 1).filterMap fun entry =>
    (CommandEntry.nonEmpty entry.detour?).map (commandResult quote addAmpersand · entry)

theorem uniqueCommands_eq (entries : List CommandEntry) :
    uniqueCommands entries qualified quote addAmpersand =
      Result.dedupe ((winners qualified entries).map (winnerResult qualified quote addAmpersand) ++
        (Assoc.values (groupCommands qualified entries)).flatMap (detours quote addAmpersand)) := rfl

theorem winnerResults_distinct (entries : List CommandEntry) :
    (((winners qualified entries).map (winnerResult qualified quote addAmpersand)).map
      fun r => Text.lower r.text).Nodup := by
  rw [List.map_map]
  refine List.pairwise_map.mpr ((List.pairwise_map.mp (winners_distinct qualified entries)).imp ?_)
  exact fun differ same => differ (Quoting.lower_formatted_injective same)

theorem uniqueCommands_winners (qualified addAmpersand : Bool) (quote : Quoting.Quote)
    (entries : List CommandEntry) :
    ∃ rest, uniqueCommands entries qualified quote addAmpersand =
      (winners qualified entries).map (winnerResult qualified quote addAmpersand) ++ rest :=
  dedupeBy_append (winnerResults_distinct entries) _

/-- An entry behind another one of its name is listed by its detour. -/
theorem uniqueCommands_detour {before after : List CommandEntry} {first entry : CommandEntry}
    (split : entries = before ++ entry :: after) (earlier : first ∈ before)
    (sameName : nameKey qualified first = nameKey qualified entry) {text : Text}
    (isDetour : entry.detour? = some text) (filled : text ≠ []) :
    ∃ r ∈ uniqueCommands entries qualified quote addAmpersand,
      Text.lower r.text = Text.lower (formatCommandName text quote addAmpersand) := by
  have grouped : sharing qualified (nameKey qualified entry) entries =
      sharing qualified (nameKey qualified entry) before ++
        entry :: sharing qualified (nameKey qualified entry) after := by
    simp [sharing, split]
  have ahead : first ∈ sharing qualified (nameKey qualified entry) before := by
    simp [sharing, earlier, sameName]
  obtain ⟨head, more, isHead⟩ := List.exists_cons_of_ne_nil (List.ne_nil_of_mem ahead)
  have behind : entry ∈ (sharing qualified (nameKey qualified entry) entries).drop 1 := by
    rw [grouped, isHead]
    exact List.mem_append_right _ List.mem_cons_self
  have isGroup : sharing qualified (nameKey qualified entry) entries ∈
      Assoc.values (groupCommands qualified entries) :=
    List.mem_map_of_mem (mem_groupCommands.mpr ⟨rfl, by simp [grouped]⟩)
  have kept : CommandEntry.nonEmpty entry.detour? = some text := by
    rw [isDetour]
    exact Option.filter_eq_some_iff.mpr ⟨rfl, by simpa using filled⟩
  have isResult : commandResult quote addAmpersand text entry ∈
      detours quote addAmpersand (sharing qualified (nameKey qualified entry) entries) :=
    List.mem_filterMap.mpr ⟨entry, behind, by rw [kept]; rfl⟩
  rw [uniqueCommands_eq]
  exact exists_mem_dedupeBy (fun r => Text.lower r.text)
    (List.mem_append_right _ (List.mem_flatMap.mpr ⟨_, isGroup, isResult⟩))

/-- What the list of commands is for some entries in order of precedence. -/
structure CommandList (entries : List CommandEntry) (qualified : Bool) (quote : Quoting.Quote)
    (addAmpersand : Bool) (results : List Result) : Prop where
  /-- No two texts differ in letter case only. -/
  distinct : (results.map fun r => Text.lower r.text).Nodup
  /-- The first entry of each name comes ahead of all others, by name and under that name. -/
  winners : ∃ winners : List CommandEntry,
    (∀ entry ∈ entries, ∃ winner ∈ winners, nameKey qualified winner = nameKey qualified entry) ∧
    (∀ winner ∈ winners,
      (entries.find? fun entry => nameKey qualified entry == nameKey qualified winner) = some winner ∧
      ∀ entry ∈ entries, nameKey qualified entry = nameKey qualified winner →
        winner.kind.precedence ≤ entry.kind.precedence) ∧
    (winners.Pairwise fun a b => Text.compare (nameKey qualified a) (nameKey qualified b) = .lt) ∧
    (results.take winners.length).map (fun r => (r.text, r.toolTip)) = winners.map fun winner =>
      (formatCommandName (winner.displayName qualified) quote addAmpersand, winner.toolTip)
  /-- An entry behind another of its name is reached by its path or by its module. -/
  reachable : ∀ before entry after, entries = before ++ entry :: after →
    (∃ first ∈ before, nameKey qualified first = nameKey qualified entry) → ∀ text,
      (entry.kind = .application ∧ entry.definition = some text) ∨
        (entry.kind ≠ .application ∧ ∃ m, entry.moduleName = some m ∧ text = m ++ "\\" ++ entry.name) →
      ∃ r ∈ results, Text.lower r.text = Text.lower (formatCommandName text quote addAmpersand)

theorem uniqueCommands_list (filled : ∀ entry ∈ entries, Filled entry)
    (ranked : entries.Pairwise fun a b => a.kind.precedence ≤ b.kind.precedence) :
    CommandList entries qualified quote addAmpersand
      (uniqueCommands entries qualified quote addAmpersand) := by
  refine ⟨dedupeBy_distinct _ _, ⟨winners qualified entries, fun entry listed => exists_winner listed,
    fun winner isWinner => ⟨?_, fun entry listed => winner_precedes ranked isWinner listed⟩,
    winners_ascending qualified entries, ?_⟩, ?_⟩
  · rw [← List.head?_filter]
    exact mem_winners.mp isWinner
  · obtain ⟨rest, split⟩ := uniqueCommands_winners qualified addAmpersand quote entries
    rw [split, List.take_left' (List.length_map _), List.map_map]
    refine List.map_congr_left fun winner isWinner => Prod.ext rfl ?_
    have isEntry := (List.mem_filter.mp (List.mem_of_head? (mem_winners.mp isWinner))).1
    exact Result.toolTip_of_filled .command (filled winner isEntry).toolTip
  · rintro before entry after split ⟨first, earlier, sameName⟩ text reached
    have isEntry : entry ∈ entries := by simp [split]
    rcases reached with ⟨isApplication, isText⟩ | ⟨isOther, m, isModule, rfl⟩
    · refine uniqueCommands_detour split earlier sameName ?_ ((filled entry isEntry).definition _ isText)
      rw [CommandEntry.detour?, isApplication, if_pos (beq_self_eq_true _), isText]
    · refine uniqueCommands_detour split earlier sameName ?_ ?_
      · rw [CommandEntry.detour?, if_neg (by simpa using isOther), isModule]
        rfl
      · exact fun none => (filled entry isEntry).name (List.append_eq_nil_iff.mp none).2

end Listed

/-! The completion of a command name. -/

section Request

/-- The module that a word names before the command, unless one is asked for apart from it. -/
def wordModule? (options : CommandOptions) (word : Text) : Option Text :=
  match CommandEntry.nonEmpty options.moduleName with
  | some _ => none
  | none => (splitModule (Quoting.strip word).2).1

/-- What a session is asked for a word. -/
def commandRequest (options : CommandOptions) (word : Text) : Query :=
  commandQuery (commandWord options word)
    (CommandEntry.nonEmpty (options.moduleName.or (wordModule? options word))) options.kinds

/-- The commands that an answer describes and whose name the pattern matches, in order of
precedence. -/
def eligible (pattern : Pattern) (values : List Value) : List CommandEntry :=
  ((values.filterMap CommandEntry.ofValue?).filter fun entry => pattern.test entry.name).mergeSort
    fun a b => a.kind.precedence ≤ b.kind.precedence

theorem eligible_ranked (pattern : Pattern) (values : List Value) :
    (eligible pattern values).Pairwise fun a b => a.kind.precedence ≤ b.kind.precedence := by
  have sorted : (eligible pattern values).Pairwise fun a b =>
      decide (a.kind.precedence ≤ b.kind.precedence) = true :=
    List.pairwise_mergeSort (fun a b c => by simpa using Nat.le_trans)
      (fun a b => by simpa using Nat.le_total _ _) _
  exact sorted.imp of_decide_eq_true

theorem eligible_filled {pattern : Pattern} {values : List Value} {entry : CommandEntry}
    (listed : entry ∈ eligible pattern values) : Filled entry := by
  obtain ⟨isKnown, -⟩ := List.mem_filter.mp (List.mem_mergeSort.mp listed)
  obtain ⟨v, -, described⟩ := List.mem_filterMap.mp isKnown
  exact filled_of_described described

variable {world : World} {state after : EngineState} {c : Context} {options : CommandOptions}
  {pattern : Pattern} {values : List Value}

theorem run_commands (compiled : Pattern.compile (commandWord options c.word ++ "*") = .ok pattern)
    (asked : Engine.run world state (Engine.query c.session (commandRequest options c.word)) =
      (.ok values, after)) :
    Engine.run world state (commands c options) =
      (.ok (uniqueCommands (eligible pattern values) (wordModule? options c.word).isSome
        (Quoting.strip c.word).1 options.addAmpersand), after) := by
  rw [commandRequest] at asked
  rw [commands]
  cases given : CommandEntry.nonEmpty options.moduleName with
  | none =>
      simp only [commandWord, wordModule?, given] at compiled asked ⊢
      rw [Engine.run_bind, run_pattern_ok compiled, Engine.goOn_ok, Engine.run_bind, asked]
      rfl
  | some moduleName =>
      simp only [commandWord, wordModule?, given] at compiled asked ⊢
      rw [Engine.run_bind, run_pattern_ok compiled, Engine.goOn_ok, Engine.run_bind, asked]
      rfl

/-- Of the commands that a session lists for a word, in order of precedence, the first of each name
is listed under that name, by name and ahead of the others, and the ones behind it by their module
or their path; no text is there twice. -/
theorem commands_unique_and_reachable
    (compiled : Pattern.compile (commandWord options c.word ++ "*") = .ok pattern)
    (asked : Engine.run world state (Engine.query c.session (commandRequest options c.word)) =
      (.ok values, after)) :
    ∃ results, Engine.run world state (commands c options) = (.ok results, after) ∧
      CommandList (eligible pattern values) (wordModule? options c.word).isSome
        (Quoting.strip c.word).1 options.addAmpersand results :=
  ⟨_, run_commands compiled asked,
    uniqueCommands_list (fun _ listed => eligible_filled listed) (eligible_ranked pattern values)⟩

/-- A command as a session describes it. -/
def commandValue (name kind moduleName : Text) : Value :=
  .plain (.session 0) [("Name", .text name), ("CommandType", .text kind), ("ModuleName", .text moduleName)]

/-- Two commands of one name, the one that would run behind the other, and a third command. -/
def thingValues : List Value :=
  [commandValue "Invoke-Thing" "Cmdlet" "B", commandValue "Invoke-Thing" "Function" "A",
    commandValue "Invoke-Other" "Cmdlet" "B"]

def thingSession : Session :=
  { execute := fun _ => .items thingValues, readVariable := fun _ => .undefined }

theorem shadowed_thing_is_reachable :
    let c := Context.ofWord "Invoke-" (some thingSession)
    ∃ pattern results, Pattern.compile "Invoke-*" = .ok pattern ∧
      (Engine.run bareWorld {} (commands c)).1 = .ok results ∧
      CommandList (eligible pattern thingValues) false .none true results := by
  intro c
  have accepted : (Pattern.compile "Invoke-*").toOption.isSome = true := by decide +kernel
  cases compiled : Pattern.compile "Invoke-*" with
  | error refused =>
      rw [compiled] at accepted
      cases accepted
  | ok pattern =>
      have started : Pattern.compile (commandWord {} c.word ++ "*") = .ok pattern := compiled
      have asked : Engine.run bareWorld {} (Engine.query c.session (commandRequest {} c.word)) =
          (.ok thingValues, { queries := [commandRequest {} c.word] }) := rfl
      obtain ⟨results, ran, listed⟩ := commands_unique_and_reachable started asked
      exact ⟨pattern, results, rfl, congrArg Prod.fst ran, listed⟩

end Request

end TabCompletion.Completion
