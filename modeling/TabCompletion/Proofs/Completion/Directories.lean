import TabCompletion.Proofs.Completion.Paths

/-!
Going on inside a container. The text of a container with a separator behind it is the word of the
next request, which lists what is in the container unless the text had to be escaped: an escape is
undone in the leaf of a word but not in its directory.
-/

namespace TabCompletion.Completion

open Wildcard MemoryPaths

/-! The next word. -/

section Next

variable {quote : Quoting.Quote} {literal : Bool} {m : PathMatch} {separator : CodeUnit}

/-- A text with a separator behind it, inside its quotes if it has some. -/
def goOn (separator : CodeUnit) (text : Text) : Text :=
  match Quoting.opening text with
  | .none => text ++ [separator]
  | _ => text.dropLast ++ separator :: text.drop (text.length - 1)

theorem goOn_between {q : Quoting.Quote} (quoted : q ≠ .none) (inside : Text) :
    goOn separator (q.text ++ inside ++ q.text) = q.text ++ (inside ++ [separator]) ++ q.text := by
  cases q with
  | none => exact absurd rfl quoted
  | single | double =>
      all_goals
        simp [goOn, Quoting.Quote.text, Quoting.opening, Text.ofString, Text.unitsOfPoint,
          Quoting.isSingleQuote, Quoting.isDoubleQuote, List.dropLast_cons_of_ne_nil]

/-- Where nothing was escaped, the next word is the path of the match and a separator. -/
theorem strip_goOn (unescaped : Quoting.Unescaped (m.toResult quote literal).text) :
    (Quoting.strip (goOn separator (m.toResult quote literal).text)).2 = m.text ++ [separator] := by
  obtain ⟨q, isText, isBare⟩ := toResult_text quote literal m
  rw [isText] at unescaped ⊢
  have whole : (if literal then m.text else Quoting.escapeBrackets m.text) = m.text := by
    cases literal with
    | true => rfl
    | false =>
        refine Quoting.escapeBrackets_bracketless fun u listed => unescaped.bracketless u ?_
        rw [Quoting.wrap_eq]
        exact List.mem_append_left _ (List.mem_append_right _ (Quoting.mem_inside listed))
  rw [whole] at unescaped ⊢
  -- A bare text opens no quote, and neither does it with a separator behind it.
  by_cases bare : q = .none
  · have notNeeded := isBare bare
    subst bare
    have filled : m.text ≠ [] := by
      rintro none
      rw [none] at notNeeded
      cases notNeeded
    have unopened := Quoting.opening_of_not_needed notNeeded
    change (Quoting.strip (goOn separator m.text)).2 = _
    rw [goOn, unopened, Quoting.strip_of_unopened]
    obtain ⟨u, rest, split⟩ := List.exists_cons_of_ne_nil filled
    rw [split] at unopened ⊢
    exact unopened
  · rw [Quoting.wrap_eq, Quoting.inside_of_unescaped bare unescaped, goOn_between bare,
      Quoting.strip_between bare]

end Next

/-! Inside a container. -/

section Inside

variable {paths : PathProvider} {entries : List Text} {currentLocation home : Text}
  {shares : Assoc (List Text)} {world : World} {state after : EngineState} {c : Context}
  {wanted : PathFilter} {path : Text} {m : PathMatch} {found : List PathMatch} {pattern : Pattern}

theorem networkShare?_slash (path : Text) : networkShare? (path ++ [('/' : CodeUnit)]) = none := by
  rw [networkShare?]
  dsimp only
  split
  · split
    · rename_i starts
      exfalso
      simp only [Bool.and_eq_true, Bool.not_eq_true', List.any_eq_false] at starts
      obtain ⟨⟨-, opens⟩, flat⟩ := starts
      generalize isRest : ((path ++ [('/' : CodeUnit)]).drop 2).dropWhile (fun u => !isSeparator u) = rest
        at opens flat
      obtain ⟨front, whole⟩ : rest <:+ path ++ [('/' : CodeUnit)] :=
        isRest ▸ (List.dropWhile_suffix _).trans (List.drop_suffix 2 _)
      obtain ⟨more, rfl⟩ := List.isPrefixOf_iff_prefix.mp opens
      -- The slash at the end would be in the name of the share.
      have last : (front ++ ('\\' : CodeUnit) :: more).getLast? = some ('/' : CodeUnit) :=
        (congrArg List.getLast? whole).trans List.getLast?_concat
      rw [List.getLast?_append, List.getLast?_cons, Option.some_or, Option.some.injEq] at last
      cases ends : more.getLast? with
      | none =>
          rw [ends] at last
          cases last
      | some u =>
          rw [ends, Option.getD_some] at last
          have isSep := flat u (List.mem_of_getLast? ends)
          rw [last] at isSep
          exact isSep rfl
    · rfl
  · rfl

/-- The only pattern of an empty leaf takes every name. -/
theorem star_takes {name : Text} (isName : IsName name)
    (compiled : Pattern.compile (Text.ofString "*") = .ok pattern) : pattern.test name = true := by
  have other : isDots name = false := by
    rw [Bool.eq_false_iff]
    exact fun dots => (isDots_iff.mp dots).elim isName.notHere isName.notAbove
  obtain ⟨star, isStar, matched⟩ := begins_iff.mp (begins_of_filled isName.filled other)
  rw [Except.ok.inj (compiled.symm.trans isStar)]
  exact matched

/-- A share is offered under its path. -/
theorem shareMatches_text {server : Text} {names : List Text}
    (ran : Engine.run world state (shareMatches c pattern server names) = (.ok found, after))
    (listed : m ∈ found) : ∃ rest : Text, m.text = "\\\\" ++ rest ∧ m.toolTip = m.text := by
  induction names generalizing state found after with
  | nil =>
      cases ran
      cases listed
  | cons share rest ih =>
      rw [shareMatches] at ran
      obtain ⟨stopped, middle, -, goesOn⟩ := Engine.run_bind_ok ran
      cases stopped with
      | true =>
          cases goesOn
          cases listed
      | false =>
          rw [if_neg Bool.false_ne_true] at goesOn
          obtain ⟨others, ended, listsOthers, last⟩ := Engine.run_bind_ok goesOn
          split at last
          · cases last
            exact ih listsOthers listed
          · cases last
            rcases List.mem_cons.mp listed with rfl | later
            · exact ⟨server ++ "\\" ++ share, by simp only [List.append_assoc], rfl⟩
            · exact ih listsOthers later

theorem matchShares_text {server started : Text}
    (ran : Engine.run world state (matchShares c server started) = (.ok found, after))
    (listed : m ∈ found) : ∃ rest : Text, m.text = "\\\\" ++ rest ∧ m.toolTip = m.text := by
  rw [matchShares] at ran
  obtain ⟨here, middle, isWorld, goesOn⟩ := Engine.run_bind_ok ran
  split at goesOn
  · cases goesOn
    cases listed
  · obtain ⟨pattern, _, -, listsShares⟩ := Engine.run_bind_ok goesOn
    obtain ⟨others, _, ranOthers, ended⟩ := Engine.run_bind_ok listsShares
    cases ended
    exact shareMatches_text ranOthers (mem_sortIgnoringCase.mp listed)

variable (isMemory : world.paths = provider entries currentLocation home shares)

include isMemory

/-- With a separator behind it a match leads into what it stands for. -/
theorem match_opens
    (separated : c.options.relativePaths = some false ∨
      (networkShare? (Quoting.strip c.word).2).isSome ∨
      lastSeparator? (Quoting.strip c.word).2 ≠ some ('\\' : CodeUnit))
    (ran : Engine.run world state (pathMatches c wanted) = (.ok found, after))
    (listed : m ∈ found) :
    place world.paths (m.text ++ "/") = walk [] m.toolTip ∧ m.toolTip ≠ [] := by
  have silent : ∀ parts t, walk parts (t ++ "/") = walk parts t := walk_trailing
  rw [pathMatches] at ran
  cases network : networkShare? (Quoting.strip c.word).2 with
  | some share =>
      rw [network] at ran
      obtain ⟨rest, isText, sameText⟩ := matchShares_text ran listed
      have absolute : world.paths.isAbsolute (m.text ++ "/") = true := by
        rw [isText, isMemory]
        rfl
      rw [place_absolute isMemory absolute, walk_trailing, sameText, isText]
      exact ⟨rfl, List.cons_ne_nil _ _⟩
  | none =>
      rw [network] at ran separated
      obtain ⟨pattern, -, rfl⟩ := run_matchItems ran
      obtain ⟨item, isItem, rfl⟩ := mem_wordMatches isMemory listed
      have lies := childItems_lie isMemory isItem
      have slashed : c.options.relativePaths = some false ∨
          lastSeparator? (Quoting.strip c.word).2 ≠ some ('\\' : CodeUnit) :=
        separated.imp_right fun other => other.resolve_left Bool.false_ne_true
      exact ⟨itemMatch_leads isMemory c.options lies slashed "/" silent, lies.path_filled⟩

/-- A word that ends in a slash lists all that is shown in the container to which it leads. -/
theorem children_offered {container : Text}
    (isWord : (Quoting.strip c.word).2 = path ++ [('/' : CodeUnit)])
    (leads : place world.paths (path ++ [('/' : CodeUnit)]) = walk [] container) :
    ∃ offers, Engine.run world state (fileNames c) = (.ok offers, state) ∧
      ∀ child ∈ (world.paths.childItems container false).getD [],
        ∃ offer ∈ offers, offer.toolTip = child.path ∧ offer.listItem = child.name := by
  obtain ⟨isContainer, isLeaf, -⟩ :=
    PathWord.of_last (u := '/') world.paths path rfl flat_nil
  have source : leafPattern c.options (PathWord.of world.paths (Quoting.strip c.word).2).leaf =
      Text.ofString "*" := by
    rw [isWord, isLeaf, leafPattern]
    split <;> rfl
  have compiled : Pattern.compile
      (leafPattern c.options (PathWord.of world.paths (Quoting.strip c.word).2).leaf) =
        .ok ⟨"*", .anything⟩ := by
    rw [source]
    rfl
  refine ⟨_, run_fileNames_ok state {} (isWord ▸ networkShare?_slash path) compiled, fun child isChild => ?_⟩
  have lies := childItems_lie isMemory isChild
  rw [childItems_congr isMemory leads.symm] at isChild
  -- An empty leaf takes every name, and without a filter every item is accepted.
  have accepted : ({} : PathFilter).accepts ⟨"*", .anything⟩ child = true := by
    rw [PathFilter.accepts, star_takes lies.isName rfl]
    cases child.isContainer <;> rfl
  have isShown : child ∈ acceptedItems world.paths (PathWord.of world.paths (Quoting.strip c.word).2).container
      (PathWord.of world.paths (Quoting.strip c.word).2).leaf
      (({} : PathFilter).accepts ⟨"*", .anything⟩) := by
    rw [isWord, isContainer, acceptedItems]
    dsimp only
    split
    · exact List.mem_append_left _ (List.mem_filter.mpr ⟨isChild, accepted⟩)
    · exact List.mem_filter.mpr ⟨isChild, accepted⟩
  refine ⟨_, List.mem_map_of_mem (List.mem_map_of_mem (mem_sortIgnoringCase.mpr isShown)), ?_, ?_⟩
  · exact Result.toolTip_of_filled _ lies.path_filled
  · exact Result.listItem_of_filled lies.isName.filled

/-- Accepting a container lets the user go on inside it: completed text and separator are a word that
lists every child that is shown, if nothing in the text had to be escaped and the directory that was
typed ends in the separator of the provider. -/
theorem accepted_container_opens
    (separated : c.options.relativePaths = some false ∨
      (networkShare? (Quoting.strip c.word).2).isSome ∨
      lastSeparator? (Quoting.strip c.word).2 ≠ some ('\\' : CodeUnit))
    {results : List Result} (ran : Engine.run world state (fileNames c wanted) = (.ok results, after))
    {r : Result} (offered : r ∈ results) (unescaped : Quoting.Unescaped r.text) (next : EngineState) :
    ∃ offers, Engine.run world next
        (fileNames { c with word := goOn world.paths.separator r.text }) = (.ok offers, next) ∧
      ∀ child ∈ (world.paths.childItems r.toolTip false).getD [],
        ∃ offer ∈ offers, offer.toolTip = child.path ∧ offer.listItem = child.name := by
  rw [fileNames_eq] at ran
  obtain ⟨found, middle, matched, ended⟩ := Engine.run_bind_ok ran
  cases ended
  obtain ⟨m, isMatch, rfl⟩ := List.mem_map.mp offered
  obtain ⟨leads, filled⟩ := match_opens isMemory separated matched isMatch
  have isToolTip : (m.toResult (Quoting.strip c.word).1 c.options.literalPaths).toolTip = m.toolTip :=
    Result.toolTip_of_filled _ filled
  rw [separator_eq isMemory, isToolTip]
  exact children_offered isMemory (strip_goOn unescaped) leads

end Inside

/-! A container that opens and one that does not. -/

section Worlds

/-- A place in which one path leads to an item. -/
def worldOf (path : Text) : World := { paths := provider [path] "/work" "/home/u" [] }

/-- The results for the items that a word without a leaf is completed to. -/
def itemResults (path word : Text) (items : List PathItem) : List Result :=
  (items.map (itemMatch {} ((PathWord.of (worldOf path).paths (Quoting.strip word).2).head
    (worldOf path).paths))).map (PathMatch.toResult (Quoting.strip word).1 false)

theorem sortIgnoringCase_few {α : Type} {found : List α} (key : α → Text) (few : found.length ≤ 1) :
    sortIgnoringCase key found = found := by
  match found with
  | [] => exact sortIgnoringCase_nil key
  | [_] => simp [sortIgnoringCase, stableSort]

theorem run_few (path word : Text) (items : List PathItem)
    (isLocal : networkShare? (Quoting.strip word).2 = none)
    (isLeaf : (PathWord.of (worldOf path).paths (Quoting.strip word).2).leaf = [])
    (accepted : acceptedItems (worldOf path).paths
      (PathWord.of (worldOf path).paths (Quoting.strip word).2).container []
      (({} : PathFilter).accepts ⟨"*", .anything⟩) = items) (few : items.length ≤ 1) :
    Engine.run (worldOf path) {} (fileNames (Context.ofWord word none)) =
      (.ok (itemResults path word items), {}) := by
  have compiled : Pattern.compile (leafPattern (Context.ofWord word none).options
      (PathWord.of (worldOf path).paths (Quoting.strip word).2).leaf) = .ok ⟨"*", .anything⟩ := by
    rw [isLeaf]
    rfl
  have listed : wordMatches (worldOf path).paths {} (Quoting.strip word).2 {} ⟨"*", .anything⟩ =
      items.map (itemMatch {} ((PathWord.of (worldOf path).paths (Quoting.strip word).2).head
        (worldOf path).paths)) := by
    rw [wordMatches, isLeaf, accepted, sortIgnoringCase_few _ few]
  rw [itemResults, ← listed]
  exact run_fileNames_ok (c := Context.ofWord word none) {} {} isLocal compiled

theorem spaced_container_opens :
    let world := worldOf "/work/my docs/a.md"
    let c := Context.ofWord "./" none
    ∃ results offers, Engine.run world {} (fileNames c) = (.ok results, {}) ∧
      ∃ r ∈ results, r.text = Text.ofString "\x27./my docs\x27" ∧
        Engine.run world {} (fileNames { c with word := goOn '/' r.text }) = (.ok offers, {}) ∧
        ∃ offer ∈ offers, offer.toolTip = Text.ofString "/work/my docs/a.md" := by
  intro world c
  have ran := run_few "/work/my docs/a.md" "./" [⟨"my docs", "/work/my docs", true, false⟩] rfl rfl rfl
    (Nat.le_refl 1)
  obtain ⟨offers, again, listed⟩ := accepted_container_opens rfl (Or.inr (Or.inr (by decide +kernel))) ran
    List.mem_cons_self
    ⟨by decide +kernel, List.forall_iff_forall_mem.mp (by decide +kernel)⟩ {}
  obtain ⟨child, isChild, isPath⟩ :
      ∃ child ∈ (world.paths.childItems (Text.ofString "/work/my docs") false).getD [],
        child.path = Text.ofString "/work/my docs/a.md" := by decide +kernel
  obtain ⟨offer, isOffer, shown, -⟩ := listed child isChild
  exact ⟨_, offers, ran, _, List.mem_cons_self, by decide +kernel, again, offer, isOffer,
    shown.trans isPath⟩

/-- A bracket is escaped in the text of a container, and nothing is found behind it. -/
theorem bracketed_container_stays_closed :
    let world := worldOf "/work/a[1]/b.txt"
    let c := Context.ofWord "./" none
    ∃ results, Engine.run world {} (fileNames c) = (.ok results, {}) ∧
      ∃ r ∈ results, r.kind = .providerContainer ∧ r.text = Text.ofString "./a\x60[1\x60]" ∧
        ((world.paths.childItems r.toolTip false).getD []).length = 1 ∧
        Engine.run world {} (fileNames { c with word := goOn '/' r.text }) = (.ok [], {}) := by
  intro world c
  have ran := run_few "/work/a[1]/b.txt" "./" [⟨"a[1]", "/work/a[1]", true, false⟩] rfl rfl rfl
    (Nat.le_refl 1)
  have again := run_few "/work/a[1]/b.txt" "./a\x60[1\x60]/" [] rfl rfl rfl (Nat.zero_le 1)
  exact ⟨_, ran, _, List.mem_cons_self, rfl, by decide +kernel, by decide +kernel, again⟩

end Worlds

end TabCompletion.Completion
