import TabCompletion.Completion.History
import TabCompletion.Proofs.Completion.Offered
import TabCompletion.Proofs.InsertionSort
import TabCompletion.Proofs.Number.Order

/-!
Search through the command history. The entries that match are gone through from the newest to the
oldest, a command line that was listed before is passed over, and the listing ends at the limit.
-/

namespace TabCompletion

/-! First occurrences in order. -/

section Firsts

variable {α : Type} {key : α → Text} {seen : List Text} {items : List α} {item : α}

/-- The items whose keys were not seen before, each key once. -/
def firsts (key : α → Text) (seen : List Text) : List α → List α
  | [] => []
  | item :: rest =>
      if seen.contains (key item) then firsts key seen rest
      else item :: firsts key (key item :: seen) rest

theorem foldl_dedupe_firsts (kept : List α) :
    (items.foldl (dedupeStep key) (seen, kept)).2 = (firsts key seen items).reverse ++ kept := by
  induction items generalizing seen kept with
  | nil => rfl
  | cons item rest ih =>
      rw [List.foldl_cons, dedupeStep, firsts]
      by_cases known : key item ∈ seen
      · rw [if_pos (List.contains_iff_mem.mpr known), if_pos (List.contains_iff_mem.mpr known), ih]
      · rw [if_neg (List.contains_iff_mem.not.mpr known),
          if_neg (List.contains_iff_mem.not.mpr known), ih]
        simp

theorem dedupeBy_firsts (key : α → Text) (items : List α) :
    dedupeBy key items = firsts key [] items := by
  rw [dedupeBy_eq, foldl_dedupe_firsts]
  simp

/-- What stands at a place is the first item whose key is neither seen nor that of an item before
the place. -/
theorem firsts_find? {i : Nat} (isItem : (firsts key seen items)[i]? = some item) :
    items.find? (fun other => key other ∉ seen ++ ((firsts key seen items).take i).map key) =
      some item := by
  induction items generalizing seen i with
  | nil => simp [firsts] at isItem
  | cons first rest ih =>
      rw [firsts] at isItem ⊢
      by_cases known : key first ∈ seen
      · rw [if_pos (List.contains_iff_mem.mpr known)] at isItem ⊢
        rw [List.find?_cons_of_neg (by simp [known]), ih isItem]
      · rw [if_neg (List.contains_iff_mem.not.mpr known)] at isItem ⊢
        -- The first item is kept: it stands at the first place, and further on its key is seen.
        cases i with
        | zero =>
            cases isItem
            rw [List.find?_cons_of_pos (by simpa using known)]
        | succ i =>
            rw [List.find?_cons_of_neg (by simp), ← ih isItem]
            congr 1
            funext other
            simp only [List.take_succ_cons, List.map_cons, List.mem_append, List.mem_cons,
              decide_eq_decide]
            tauto

end Firsts

namespace Completion

open Wildcard

/-! Limits. -/

/-- What a number allows as a limit: so many items, or any number of them. -/
inductive IsLimit : Number → Option Nat → Prop
  | whole {limit : Number} {k : Nat} (positive : 1 ≤ k) (isWhole : limit.toInt? = some (k : Int)) :
      IsLimit limit (some k)
  | unlimited : IsLimit (.infinite false) none

theorem takeUpTo_whole {limit : Number} {k : Nat} (isWhole : limit.toInt? = some (k : Int))
    {α : Type} (items : List α) : takeUpTo limit items = items.take k := by
  rw [takeUpTo]
  · rw [isWhole]
    rfl
  · rintro rfl
    cases isWhole

theorem takeUpTo_sublist (limit : Number) {α : Type} (items : List α) :
    ∃ k, takeUpTo limit items = items.take k := by
  rw [takeUpTo.eq_def]
  split
  · exact ⟨items.length, by simp⟩
  · exact ⟨_, rfl⟩

/-! List items. -/

theorem listItem_length (e : HistoryEntry) : e.listItem.length ≤ listItemLength := by
  have dots : (Text.ofString "...").length = 3 := by decide
  rw [HistoryEntry.listItem]
  split
  · rw [List.length_append, List.length_take, dots, listItemLength]
    omega
  · rename_i fits
    simp only [Bool.or_eq_true, decide_eq_true_eq, not_or, Nat.not_lt] at fits
    exact fits.1

theorem toResult_listItem_length (e : HistoryEntry) :
    e.toResult.listItem.length ≤ listItemLength := by
  have short := listItem_length e
  rw [HistoryEntry.toResult, Result.listItem_of]
  split
  · rename_i isEmpty
    have isWhole : e.commandLine = [] := by
      rw [HistoryEntry.listItem] at isEmpty
      split at isEmpty
      · have endsInDots : Text.ofString "..." = [] := (List.append_eq_nil_iff.mp isEmpty).2
        exact absurd endsInDots (by decide)
      · rename_i fits
        simp only [Bool.or_eq_true, bne_iff_ne, not_or, not_not] at fits
        rw [← fits.2, isEmpty]
    rw [isWhole]
    exact Nat.zero_le _
  · exact short

/-! What the search lists. -/

/-- No earlier result has the command line, whatever the letter case. -/
def Unlisted (earlier : List Result) (e : HistoryEntry) : Prop :=
  ∀ r ∈ earlier, Text.lower r.text ≠ Text.lower e.commandLine

/-- Of the entries whose command lines are not listed earlier this one has the greatest id. -/
structure Newest (entries : List HistoryEntry) (earlier : List Result) (e : HistoryEntry) : Prop where
  isEntry : e ∈ entries
  unlisted : Unlisted earlier e
  newest : ∀ other ∈ entries, Unlisted earlier other → other = e ∨ other.id.lt e.id = true

/-- The results are the newest entries of distinct command lines, up to a limit. -/
structure ListsNewest (entries : List HistoryEntry) (limit : Option Nat) (results : List Result) :
    Prop where
  atMost : ∀ k, limit = some k → results.length ≤ k
  ordered : ∀ i r, results[i]? = some r →
    ∃ e, Newest entries (results.take i) e ∧ r.text = e.commandLine
  covers : (∀ k, limit = some k → results.length < k) →
    ∀ e ∈ entries, ∃ r ∈ results, Text.lower r.text = Text.lower e.commandLine
  short : ∀ r ∈ results, r.listItem.length ≤ 64

/-- Entries of which each is newer than those behind it. -/
def NewestFirst (entries : List HistoryEntry) : Prop :=
  entries.Pairwise fun a b => b.id.lt a.id = true

theorem unlisted_iff {earlier : List Result} {e : HistoryEntry} :
    Unlisted earlier e ↔ Text.lower e.commandLine ∉ earlier.map fun r => Text.lower r.text := by
  rw [Unlisted, List.mem_map]
  push Not
  rfl

/-- Each result is the newest of those whose command lines do not stand before it. -/
theorem deduped_newest {sorted entries : List HistoryEntry} (newestFirst : NewestFirst sorted)
    (perm : sorted.Perm entries) {i : Nat} {r : Result}
    (isResult : (Result.dedupe (sorted.map HistoryEntry.toResult))[i]? = some r) :
    ∃ e, Newest entries ((Result.dedupe (sorted.map HistoryEntry.toResult)).take i) e ∧
      r.text = e.commandLine := by
  rw [Result.dedupe, dedupeBy_firsts] at isResult ⊢
  have found := firsts_find? isResult
  generalize (firsts _ [] (sorted.map HistoryEntry.toResult)).take i = earlier at found ⊢
  rw [List.nil_append, List.find?_map, Option.map_eq_some_iff] at found
  obtain ⟨e, isFirst, rfl⟩ := found
  obtain ⟨isNew, before, behind, rfl, passed⟩ := List.find?_eq_some_iff_append.mp isFirst
  refine ⟨e, ⟨perm.mem_iff.mp (by simp), unlisted_iff.mpr (of_decide_eq_true isNew), ?_⟩, rfl⟩
  intro other isEntry unlisted
  -- What was passed on the way is listed, and what stands behind is older.
  rcases List.mem_append.mp (perm.mem_iff.mpr isEntry) with isPassed | later
  · have listed : (!decide (Text.lower other.commandLine ∉
        earlier.map fun r => Text.lower r.text)) = true := passed other isPassed
    rw [decide_eq_true (unlisted_iff.mp unlisted)] at listed
    cases listed
  · rcases List.mem_cons.mp later with same | older
    · exact Or.inl same
    · have fromHere := (List.pairwise_append.mp newestFirst).2.1
      exact Or.inr ((List.pairwise_cons.mp fromHere).1 other older)

theorem deduped_lists {sorted entries : List HistoryEntry} (newestFirst : NewestFirst sorted)
    (perm : sorted.Perm entries) {limit : Number} {most : Option Nat} (isLimit : IsLimit limit most) :
    ListsNewest entries most
      (takeUpTo limit (Result.dedupe (sorted.map HistoryEntry.toResult))) := by
  obtain ⟨n, isFront⟩ := takeUpTo_sublist limit (Result.dedupe (sorted.map HistoryEntry.toResult))
  constructor
  · rintro k rfl
    cases isLimit with
    | whole _ isWhole =>
        rw [takeUpTo_whole isWhole]
        exact List.length_take_le _ _
  · intro i r isResult
    rw [isFront, List.getElem?_take] at isResult
    split at isResult
    · rename_i inside
      rw [isFront, List.take_take, Nat.min_eq_left inside.le]
      exact deduped_newest newestFirst perm isResult
    · cases isResult
  · intro notFull
    have isWhole : takeUpTo limit (Result.dedupe (sorted.map HistoryEntry.toResult)) =
        Result.dedupe (sorted.map HistoryEntry.toResult) := by
      cases isLimit with
      | @whole _ k _ isWhole =>
          have fewer := notFull k rfl
          rw [takeUpTo_whole isWhole, List.length_take] at fewer
          rw [takeUpTo_whole isWhole]
          exact List.take_of_length_le (by omega)
      | unlimited => rfl
    intro e isEntry
    rw [isWhole]
    exact exists_mem_dedupeBy (fun r : Result => Text.lower r.text)
      (List.mem_map_of_mem (perm.mem_iff.mpr isEntry))
  · intro r listed
    rw [isFront] at listed
    obtain ⟨e, -, rfl⟩ := List.mem_map.mp (mem_of_mem_dedupeBy (List.mem_of_mem_take listed))
    exact toResult_listItem_length e

/-! The search. -/

/-- The word without the sign that asks for the history. -/
def searchedText (word : Text) : Text := if Text.startsWith word "#" then word.drop 1 else word

/-- The ids are finite numbers, and no two of them are equal. -/
structure DistinctIds (entries : List HistoryEntry) : Prop where
  finite : ∀ e ∈ entries, e.id.isFinite = true
  distinct : entries.Pairwise fun a b => a.id.eq b.id = false

theorem DistinctIds.values_nodup {entries : List HistoryEntry} (ids : DistinctIds entries) :
    (entries.map fun e => e.id.value).Nodup := by
  refine List.pairwise_map.mpr (ids.distinct.imp_of_mem fun {a b} isA isB differ same => ?_)
  rw [(Number.eq_iff_value (ids.finite a isA) (ids.finite b isB)).mpr same] at differ
  cases differ

/-- Entries of distinct ids are sorted strictly, from the newest to the oldest. -/
theorem sorted_newestFirst {entries : List HistoryEntry} (ids : DistinctIds entries) :
    NewestFirst (insertionSort (fun a b => b.id.lt a.id) entries) := by
  have perm := insertionSort_perm (fun a b : HistoryEntry => b.id.lt a.id) entries
  have compares : ComparesBy (fun a b : HistoryEntry => b.id.lt a.id) (fun e => -e.id.value)
      entries := by
    intro a isA b isB
    rw [Number.lt_iff_value (ids.finite b isB) (ids.finite a isA), neg_lt_neg_iff]
  have apart := List.pairwise_map.mp ((perm.map fun e => e.id.value).nodup_iff.mpr ids.values_nodup)
  refine ((insertionSort_ascending compares).and apart).imp_of_mem fun {a b} isA isB both => ?_
  have finiteA := ids.finite a (perm.mem_iff.mp isA)
  have finiteB := ids.finite b (perm.mem_iff.mp isB)
  rw [Number.lt_iff_value finiteB finiteA]
  exact lt_of_le_of_ne (neg_le_neg_iff.mp both.1) both.2.symm

variable {world : World} {state after : EngineState} {c : Context} {values : List Value}

theorem run_history
    (isText : ¬(searchedText c.word ≠ [] ∧ (searchedText c.word).all Text.isDigit))
    (answered : Engine.run world state (Engine.query c.session { command := "Get-History" }) =
      (.ok values, after)) :
    Engine.run world state (history c) =
      match Pattern.compile ("*" ++ searchedText c.word ++ "*") with
      | .error error => (.error (.pattern error), after)
      | .ok pattern => (.ok (takeUpTo c.options.maxHistoryEntries (Result.dedupe
          (((insertionSort (fun a b => b.id.lt a.id) (values.filterMap HistoryEntry.ofValue?)).filter
            fun e => pattern.test e.commandLine).map HistoryEntry.toResult))), after) := by
  have branch : (!(searchedText c.word).isEmpty &&
      (searchedText c.word).all Text.isDigit) = false := by
    simpa [List.isEmpty_iff] using isText
  rw [history]
  change Engine.run world state (if (!(searchedText c.word).isEmpty &&
    (searchedText c.word).all Text.isDigit) = true then _ else _) = _
  rw [branch, if_neg Bool.false_ne_true, Engine.run_bind, answered, Engine.goOn_ok, Engine.run_bind]
  change Engine.goOn world _ (Engine.run world after
    (Engine.pattern ("*" ++ searchedText c.word ++ "*"))) = _
  cases compiled : Pattern.compile ("*" ++ searchedText c.word ++ "*") with
  | error error =>
      rw [Engine.pattern, compilePattern, compiled]
      rfl
  | ok pattern =>
      rw [run_pattern_ok compiled]
      rfl

/-- A word that is no number lists the newest entries that match it, each command line once and at
most as many as the limit allows; it fails only where it is refused as a pattern. -/
theorem history_lists_newest {limit : Option Nat}
    (isText : ¬(searchedText c.word ≠ [] ∧ (searchedText c.word).all Text.isDigit))
    (isLimit : IsLimit c.options.maxHistoryEntries limit)
    (answered : Engine.run world state (Engine.query c.session { command := "Get-History" }) =
      (.ok values, after))
    (ids : DistinctIds (values.filterMap HistoryEntry.ofValue?)) :
    (∀ error, Pattern.compile ("*" ++ searchedText c.word ++ "*") = .error error →
      Engine.run world state (history c) = (.error (.pattern error), after)) ∧
    ∀ pattern, Pattern.compile ("*" ++ searchedText c.word ++ "*") = .ok pattern →
      ∃ results, Engine.run world state (history c) = (.ok results, after) ∧
        ListsNewest ((values.filterMap HistoryEntry.ofValue?).filter
          fun e => pattern.test e.commandLine) limit results := by
  have ran := run_history isText answered
  constructor
  · intro error refused
    rw [ran, refused]
  · intro pattern compiled
    rw [compiled] at ran
    refine ⟨_, ran, deduped_lists ?_ ?_ isLimit⟩
    · exact (sorted_newestFirst ids).sublist List.filter_sublist
    · exact (insertionSort_perm _ _).filter _

def historyValue (id : Nat) (commandLine : Text) : Value :=
  .object (.session id) [] [("Id", .number (.ofNat id)), ("CommandLine", .text commandLine)]

/-- A history out of order with a command line that is repeated in other letters, and a value that
is no entry. -/
def itemHistory : List Value :=
  [historyValue 1 "get-item a", historyValue 3 "Set-Item b", historyValue 2 "Get-Item a",
    historyValue 4 "Get-Process", .object (.session 5) [] [("CommandLine", .text "no item")]]

def itemSession : Session :=
  { execute := fun _ => .items itemHistory, readVariable := fun _ => .undefined }

def itemSearch : Context := .ofWord "#item" (some itemSession)

theorem item_history_searched :
    DistinctIds (itemHistory.filterMap HistoryEntry.ofValue?) ∧
    ∃ pattern results, Pattern.compile "*item*" = .ok pattern ∧
      (Engine.run bareWorld {} (history itemSearch)).1 = .ok results ∧
      ListsNewest ((itemHistory.filterMap HistoryEntry.ofValue?).filter
        fun e => pattern.test e.commandLine) (some 50) results := by
  have ids : DistinctIds (itemHistory.filterMap HistoryEntry.ofValue?) := by
    constructor
    · decide +kernel
    · decide +kernel
  have isLimit : IsLimit itemSearch.options.maxHistoryEntries (some 50) :=
    .whole (by decide) (by decide +kernel)
  have isText : ¬(searchedText itemSearch.word ≠ [] ∧
      (searchedText itemSearch.word).all Text.isDigit) := by decide +kernel
  have accepted : begins "*item" "Set-Item b" = true := by decide +kernel
  obtain ⟨pattern, compiled, -⟩ := begins_iff.mp accepted
  have asked : Engine.run bareWorld {} (Engine.query itemSearch.session
      { command := "Get-History" }) =
        (.ok itemHistory, { queries := [{ command := "Get-History" }] }) := rfl
  obtain ⟨results, ran, lists⟩ :=
    (history_lists_newest isText isLimit asked ids).2 pattern compiled
  exact ⟨ids, pattern, results, compiled, congrArg Prod.fst ran, lists⟩

example : ((Engine.run bareWorld {} (history itemSearch)).1.toOption.map fun results =>
    results.map (·.text)) = some [Text.ofString "Set-Item b", Text.ofString "Get-Item a"] := by
  decide +kernel

end Completion
end TabCompletion
