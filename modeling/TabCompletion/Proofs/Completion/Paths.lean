import TabCompletion.Proofs.Completion.Offered
import TabCompletion.Proofs.Paths.Words
import TabCompletion.Proofs.Quoting.Stripping

/-!
Completed paths. What a word is completed to leads to the item that the result stands for, and where
paths are taken literally its text denotes that item.
-/

namespace TabCompletion.Completion

open Wildcard MemoryPaths

/-! The items that a word is completed to. -/

section Matched

variable {world : World} {state after : EngineState} {c : Context} {word : Text} {wanted : PathFilter}
  {pattern : Pattern} {found : List PathMatch}

/-- The pattern that the names of items have to match. -/
def leafPattern (options : Options) (leaf : Text) : Text :=
  (if options.literalPaths then escape leaf else leaf) ++ "*"

/-- The match of an item behind a head. -/
def itemMatch (options : Options) (head : Text) (item : PathItem) : PathMatch :=
  { text := if options.relativePaths == some false then item.path else head ++ item.name
    listItem := item.name, toolTip := item.path, isContainer := item.isContainer }

/-- The matches of a word, in the order in which they are listed. -/
def wordMatches (paths : PathProvider) (options : Options) (word : Text) (wanted : PathFilter)
    (pattern : Pattern) : List PathMatch :=
  let parts := PathWord.of paths word
  (sortIgnoringCase (·.path)
    (acceptedItems paths parts.container parts.leaf (wanted.accepts pattern))).map
      (itemMatch options (parts.head paths))

theorem matchItems_eq : matchItems c word wanted = (do
    let paths := (← read).paths
    let pattern ← Engine.pattern (leafPattern c.options (PathWord.of paths word).leaf)
    return wordMatches paths c.options word wanted pattern) := by
  rw [matchItems]
  cases literal : c.options.literalPaths <;> simp only [leafPattern, literal] <;> rfl

theorem run_matchItems_ok
    (compiled : Pattern.compile (leafPattern c.options (PathWord.of world.paths word).leaf) = .ok pattern) :
    Engine.run world state (matchItems c word wanted) =
      (.ok (wordMatches world.paths c.options word wanted pattern), state) := by
  rw [matchItems_eq, Engine.run_bind, Engine.run_read, Engine.goOn_ok, Engine.run_bind,
    run_pattern_ok compiled, Engine.goOn_ok, Engine.run_pure]

theorem run_matchItems
    (ran : Engine.run world state (matchItems c word wanted) = (.ok found, after)) :
    ∃ pattern, Pattern.compile (leafPattern c.options (PathWord.of world.paths word).leaf) = .ok pattern ∧
      found = wordMatches world.paths c.options word wanted pattern := by
  rw [matchItems_eq, Engine.run_bind, Engine.run_read, Engine.goOn_ok] at ran
  obtain ⟨pattern, middle, matched, ended⟩ := Engine.run_bind_ok ran
  cases ended
  exact ⟨pattern, (run_pattern matched).1, rfl⟩

/-- The matches of a word: shares of a server, or items. -/
def pathMatches (c : Context) (wanted : PathFilter) : Engine (List PathMatch) :=
  match networkShare? (Quoting.strip c.word).2 with
  | some (server, started) => matchShares c server started
  | none => matchItems c (Quoting.strip c.word).2 wanted

theorem fileNames_eq (c : Context) (wanted : PathFilter) :
    fileNames c wanted = pathMatches c wanted >>= fun found =>
      return found.map (PathMatch.toResult (Quoting.strip c.word).1 c.options.literalPaths) := by
  rw [fileNames, pathMatches]
  rcases Quoting.strip c.word with ⟨quote, word⟩
  dsimp only
  cases networkShare? word <;> rfl

theorem pathMatches_local (isLocal : networkShare? (Quoting.strip c.word).2 = none) :
    pathMatches c wanted = matchItems c (Quoting.strip c.word).2 wanted := by
  rw [pathMatches, isLocal]

/-- Where there is no network share, a word is completed to items as soon as its leaf makes a
pattern. -/
theorem run_fileNames_ok (state : EngineState) (wanted : PathFilter)
    (isLocal : networkShare? (Quoting.strip c.word).2 = none)
    (compiled : Pattern.compile
      (leafPattern c.options (PathWord.of world.paths (Quoting.strip c.word).2).leaf) = .ok pattern) :
    Engine.run world state (fileNames c wanted) =
      (.ok ((wordMatches world.paths c.options (Quoting.strip c.word).2 wanted pattern).map
        (PathMatch.toResult (Quoting.strip c.word).1 c.options.literalPaths)), state) := by
  rw [fileNames_eq, pathMatches_local isLocal, Engine.run_bind, run_matchItems_ok compiled,
    Engine.goOn_ok, Engine.run_pure]

theorem length_wordMatches (paths : PathProvider) (options : Options) :
    (wordMatches paths options word wanted pattern).length =
      (acceptedItems paths (PathWord.of paths word).container (PathWord.of paths word).leaf
        (wanted.accepts pattern)).length := by
  rw [wordMatches, List.length_map, (sortIgnoringCase_perm PathItem.path _).length_eq]

end Matched

/-! Where matches lead. -/

section Memory

variable {paths : PathProvider} {entries : List Text} {currentLocation home : Text}
  {shares : Assoc (List Text)} {container leaf word : Text} {accepts : PathItem → Bool}
  {item : PathItem} {options : Options} {wanted : PathFilter} {pattern : Pattern} {m : PathMatch}
  (isMemory : paths = provider entries currentLocation home shares)

include isMemory

theorem acceptedItems_all (listed : item ∈ acceptedItems paths container leaf accepts) :
    item ∈ (paths.childItems container true).getD [] := by
  simp only [acceptedItems] at listed
  have shown (isShown : item ∈ ((paths.childItems container false).getD []).filter accepts) :
      item ∈ (paths.childItems container true).getD [] :=
    childItems_all isMemory (List.mem_filter.mp isShown).1
  split at listed
  · rcases List.mem_append.mp listed with isShown | isHidden
    · exact shown isShown
    · exact (List.mem_filter.mp isHidden).1
  · exact shown listed

theorem acceptedItems_distinct :
    ((acceptedItems paths container leaf accepts).map PathItem.path).Nodup := by
  have shown : ((((paths.childItems container false).getD []).filter accepts).map PathItem.path).Nodup :=
    (childItems_distinct isMemory).sublist (List.filter_sublist.map _)
  rw [acceptedItems]
  dsimp only
  split
  · rw [List.map_append]
    refine shown.append ((childItems_distinct isMemory).sublist (List.filter_sublist.map _)) ?_
    -- A hidden item is added only if no shown one has its path.
    rintro path isShown isHidden
    obtain ⟨hidden, listed, rfl⟩ := List.mem_map.mp isHidden
    obtain ⟨other, isOther, same⟩ := List.mem_map.mp isShown
    have fresh := (Bool.and_eq_true_iff.mp (List.mem_filter.mp listed).2).1
    rw [Bool.not_eq_true', List.any_eq_false] at fresh
    exact fresh other isOther (beq_iff_eq.mpr same)
  · exact shown

theorem isAbsolute_rooted (parts : List Text) (rest : Text) :
    paths.isAbsolute (rooted parts ++ rest) = true := by
  subst isMemory
  rfl

theorem mem_wordMatches (listed : m ∈ wordMatches paths options word wanted pattern) :
    ∃ item ∈ (paths.childItems (PathWord.of paths word).container true).getD [],
      m = itemMatch options ((PathWord.of paths word).head paths) item := by
  obtain ⟨item, isItem, rfl⟩ := List.mem_map.mp listed
  exact ⟨item, acceptedItems_all isMemory (mem_sortIgnoringCase.mp isItem), rfl⟩

/-- The text of a match leads to its item, also with a slash behind it. -/
theorem itemMatch_leads (options : Options)
    (lies : LiesIn (walk [] (PathWord.of paths word).container) item)
    (slashed : options.relativePaths = some false ∨ lastSeparator? word ≠ some ('\\' : CodeUnit))
    (rest : Text) (silent : ∀ parts t, walk parts (t ++ rest) = walk parts t) :
    place paths ((itemMatch options ((PathWord.of paths word).head paths) item).text ++ rest) =
      walk [] item.path := by
  have proper := lies.proper (walk_proper proper_nil _)
  rw [lies.path, walk_rooted proper, itemMatch]
  dsimp only
  cases forced : options.relativePaths == some false with
  | true =>
      rw [if_pos rfl, lies.path, place_absolute isMemory (isAbsolute_rooted isMemory _ _), silent,
        walk_rooted proper]
  | false =>
      have headEnds := head_ends isMemory
        (slashed.resolve_left fun isForced => beq_eq_false_iff_ne.mp forced isForced)
      rw [if_neg Bool.false_ne_true, List.append_assoc, place_directory isMemory headEnds, silent,
        walk_name lies.isName, container_place isMemory]

end Memory

/-! Paths that are taken literally. -/

section Literal

/-- The path that a completed text denotes: without its quotes, with the home directory for a tilde,
and resolved against the current location. -/
def denoted (paths : PathProvider) (text : Text) : Text :=
  let path := Quoting.unquoted text
  let expanded :=
    if path == Text.ofString "~" || Text.startsWith path "~/" then paths.home ++ path.drop 1 else path
  if paths.isAbsolute expanded then normalize expanded
  else paths.join paths.currentLocation expanded

/-- The text of a result denotes the item for which the result stands. -/
structure Denotes (paths : PathProvider) (r : Result) : Prop where
  path : denoted paths r.text = r.toolTip
  item : ∃ container item, item ∈ (paths.childItems container true).getD [] ∧ item.path = r.toolTip ∧
    r.kind = if item.isContainer then .providerContainer else .providerItem

variable {paths : PathProvider} {entries : List Text} {currentLocation home : Text}
  {shares : Assoc (List Text)} {word : Text} {item : PathItem} {options : Options} {m : PathMatch}

theorem networkShare?_none (slashed : ('\\' : CodeUnit) ∉ word) : networkShare? word = none := by
  have notNetwork : Text.startsWith word "\\\\" = false := by
    rw [Bool.eq_false_iff]
    intro starts
    exact slashed ((List.isPrefixOf_iff_prefix.mp starts).subset List.mem_cons_self)
  rw [networkShare?, notNetwork, if_neg Bool.false_ne_true]

theorem lastSeparator?_slashed (slashed : ('\\' : CodeUnit) ∉ word) :
    lastSeparator? word ≠ some ('\\' : CodeUnit) := fun last =>
  slashed (List.mem_reverse.mp (List.mem_of_find?_eq_some last))

/-- A match is written in quotes, or bare where nothing in it asks for them. -/
theorem toResult_text (quote : Quoting.Quote) (literal : Bool) (m : PathMatch) :
    ∃ q : Quoting.Quote, (m.toResult quote literal).text =
        q.wrap (if literal then m.text else Quoting.escapeBrackets m.text) ∧
      (q = .none → Quoting.needed m.text (!literal) = false) := by
  cases quote with
  | single => exact ⟨.single, rfl, nofun⟩
  | double => exact ⟨.double, rfl, nofun⟩
  | none =>
      cases bare : Quoting.needed m.text (!literal) with
      | true =>
          refine ⟨.single, ?_, nofun⟩
          simp only [PathMatch.toResult, bare, if_true]
          rfl
      | false =>
          refine ⟨.none, ?_, fun _ => rfl⟩
          simp only [PathMatch.toResult, bare, Bool.false_eq_true, if_false]
          rfl

theorem unquoted_toResult (quote : Quoting.Quote) (m : PathMatch) :
    Quoting.unquoted (m.toResult quote true).text = m.text := by
  obtain ⟨q, isText, isBare⟩ := toResult_text quote true m
  rw [isText, if_pos rfl]
  by_cases bare : q = .none
  · have unopened := Quoting.opening_of_not_needed (isBare bare)
    rw [bare, Quoting.Quote.wrap, Quoting.unquoted, Quoting.strip_of_unopened unopened]
  · exact Quoting.unquoted_wrap bare m.text

variable (isMemory : paths = provider entries currentLocation home shares)

include isMemory

/-- A text without a backslash behind its tilde denotes the place to which it leads. -/
theorem denoted_eq {text : Text} (plain : Text.startsWith (Quoting.unquoted text) "~\\" = false) :
    denoted paths text = rooted (place paths (Quoting.unquoted text)) := by
  have expanded : (if Quoting.unquoted text == Text.ofString "~" ||
        Text.startsWith (Quoting.unquoted text) "~/" then paths.home ++ (Quoting.unquoted text).drop 1
      else Quoting.unquoted text) = expandHome paths.home (Quoting.unquoted text) := by
    rw [expandHome, isHomeRooted, plain, Bool.or_false]
  simp only [denoted, expanded, place, locate]
  split
  · rfl
  · rw [walk_join isMemory, join_eq isMemory]

theorem itemMatch_plain (slashed : ('\\' : CodeUnit) ∉ word)
    (lies : LiesIn (walk [] (PathWord.of paths word).container) item) :
    Text.startsWith (itemMatch options ((PathWord.of paths word).head paths) item).text "~\\" =
      false := by
  rw [itemMatch]
  dsimp only
  split
  · rw [lies.path]
    rfl
  · have headEnds := head_ends isMemory (lastSeparator?_slashed slashed)
    have backslashless := head_slashed isMemory slashed
    -- The head ends in a slash, so a unit behind its first is one of its own.
    generalize (PathWord.of paths word).head paths = head at headEnds backslashless
    match head with
    | [] => cases headEnds
    | [u] =>
        rw [List.getLast?_singleton, Option.some.injEq] at headEnds
        rw [headEnds]
        rfl
    | u :: v :: rest =>
        have other : ('\\' : CodeUnit) ≠ v := fun same => backslashless (same ▸ by simp)
        rw [Bool.eq_false_iff]
        intro starts
        obtain ⟨more, split⟩ := List.isPrefixOf_iff_prefix.mp starts
        exact other (List.cons.inj (List.cons.inj split).2).1

theorem toResult_denotes {quote : Quoting.Quote} (slashed : ('\\' : CodeUnit) ∉ word)
    (listed : item ∈ (paths.childItems (PathWord.of paths word).container true).getD []) :
    Denotes paths ((itemMatch options ((PathWord.of paths word).head paths) item).toResult quote true) := by
  have lies := childItems_lie isMemory listed
  have proper := lies.proper (walk_proper proper_nil _)
  have leads := itemMatch_leads isMemory options lies (Or.inr (lastSeparator?_slashed slashed)) []
    fun parts t => by rw [List.append_nil]
  rw [List.append_nil] at leads
  have shown : ((itemMatch options ((PathWord.of paths word).head paths) item).toResult quote
      true).toolTip = item.path := Result.toolTip_of_filled _ lies.path_filled
  constructor
  · rw [shown, denoted_eq isMemory (by rw [unquoted_toResult]; exact itemMatch_plain isMemory slashed lies),
      unquoted_toResult, leads, lies.path, walk_rooted proper]
  · exact ⟨_, item, listed, shown.symm, rfl⟩

theorem toolTips_wordMatches {wanted : PathFilter} {pattern : Pattern} (quote : Quoting.Quote)
    (literal : Bool) :
    ((wordMatches paths options word wanted pattern).map (PathMatch.toResult quote literal)).map
        Result.toolTip =
      (sortIgnoringCase PathItem.path (acceptedItems paths (PathWord.of paths word).container
        (PathWord.of paths word).leaf (wanted.accepts pattern))).map PathItem.path := by
  rw [wordMatches, List.map_map, List.map_map]
  refine List.map_congr_left fun item listed => Result.toolTip_of_filled _ ?_
  exact (childItems_lie isMemory
    (acceptedItems_all isMemory (mem_sortIgnoringCase.mp listed))).path_filled

end Literal

section Listing

variable {world : World} {state after : EngineState} {c : Context} {wanted : PathFilter}
  {entries : List Text} {currentLocation home : Text} {shares : Assoc (List Text)}
  {results : List Result}

/-- Paths that are taken literally denote what they are offered for: undone of its quotes and
resolved, a text is the path of the item that its result explains. Every item is offered once, and
they are in order of their paths. -/
theorem literal_paths_denote_items
    (isMemory : world.paths = provider entries currentLocation home shares)
    (literal : c.options.literalPaths = true) (slashed : ('\\' : CodeUnit) ∉ c.word)
    (ran : Engine.run world state (fileNames c wanted) = (.ok results, after)) :
    (∀ r ∈ results, Denotes world.paths r) ∧ (results.map Result.toolTip).Nodup ∧
      results.Pairwise fun a b => NotAfter a.toolTip b.toolTip := by
  have slashedWord : ('\\' : CodeUnit) ∉ (Quoting.strip c.word).2 :=
    fun listed => slashed (Quoting.mem_of_mem_strip listed)
  rw [fileNames_eq, pathMatches_local (networkShare?_none slashedWord), literal] at ran
  obtain ⟨found, middle, matched, ended⟩ := Engine.run_bind_ok ran
  cases ended
  obtain ⟨pattern, -, rfl⟩ := run_matchItems matched
  refine ⟨fun r listed => ?_, ?_, ?_⟩
  · obtain ⟨m, isMatch, rfl⟩ := List.mem_map.mp listed
    obtain ⟨item, isItem, rfl⟩ := mem_wordMatches isMemory isMatch
    exact toResult_denotes isMemory slashedWord isItem
  · rw [toolTips_wordMatches isMemory, ((sortIgnoringCase_perm PathItem.path _).map _).nodup_iff]
    exact acceptedItems_distinct isMemory
  · apply List.pairwise_map.mp
    rw [toolTips_wordMatches isMemory]
    exact List.pairwise_map.mpr (sortIgnoringCase_ordered PathItem.path _)

/-- A home directory with a name that has to be quoted and one with a quote in it. -/
def homeWorld : World :=
  { paths := provider ["/home/u/my file.txt", "/home/u/it\x27s/"] "/work" "/home/u" [] }

def literalHome : Context :=
  { Context.ofWord "~/" none with options := { literalPaths := true } }

theorem home_items_are_denoted :
    ∃ results, (Engine.run homeWorld {} (fileNames literalHome)).1 = .ok results ∧ results.length = 2 ∧
      (∀ r ∈ results, Denotes homeWorld.paths r) ∧ (results.map Result.toolTip).Nodup ∧
      results.Pairwise fun a b => NotAfter a.toolTip b.toolTip := by
  have compiled : Pattern.compile (leafPattern literalHome.options
      (PathWord.of homeWorld.paths (Quoting.strip literalHome.word).2).leaf) =
        .ok ⟨"*", .anything⟩ := rfl
  have ran := run_fileNames_ok {} {} (by decide +kernel) compiled
  refine ⟨_, congrArg Prod.fst ran, ?_, literal_paths_denote_items rfl rfl (by decide +kernel) ran⟩
  rw [List.length_map, length_wordMatches]
  decide +kernel

end Listing

end TabCompletion.Completion
