import TabCompletion.Editor.Configuration
import TabCompletion.Proofs.Completion.HistorySearch
import TabCompletion.Proofs.Json.Numbers

/-!
The limit that a client sets on the history. A limit counts if it is finite and positive, and is rounded
down after that, so one below one becomes zero. Such a limit switches the search through the history off,
and no other setting does.
-/

namespace TabCompletion

open Completion Editor Wildcard

/-! The limit. -/

/-- The history limit to which a settings section leads. -/
def historyLimit (settings : Json) : Number :=
  (Options.ofOverrides (Configuration.readOptions settings)).maxHistoryEntries

/-- A finite and positive limit in a settings section. -/
structure SetsLimit (settings : Json) (limit : Number) : Prop where
  isNumber : (settings.get "maxHistoryEntries").number? = some limit
  isFinite : limit.isFinite = true
  positive : 0 < limit.value

/-- The section sets a limit that is below one. -/
def BelowOne (settings : Json) : Prop := ∃ limit, SetsLimit settings limit ∧ limit.value < 1

theorem zero_lt_iff {x : Number} (isFinite : x.isFinite = true) :
    Number.zero.lt x = true ↔ 0 < x.value := by
  have zero : Number.zero.value = 0 := by simp [Number.zero, Number.value]
  rw [Number.lt_iff_value rfl isFinite, zero]

theorem historyLimit_eq (settings : Json) :
    historyLimit settings =
      match (settings.get "maxHistoryEntries").number?.filter (·.isFinite) with
      | some limit => if Number.zero.lt limit then limit.floor else .ofNat 50
      | none => .ofNat 50 := rfl

theorem historyLimit_set {settings : Json} {limit : Number} (sets : SetsLimit settings limit) :
    historyLimit settings = limit.floor := by
  rw [historyLimit_eq, sets.isNumber, Option.filter_some, if_pos sets.isFinite]
  exact if_pos ((zero_lt_iff sets.isFinite).mpr sets.positive)

theorem historyLimit_unset {settings : Json} (unset : ∀ limit, ¬SetsLimit settings limit) :
    historyLimit settings = .ofNat 50 := by
  rw [historyLimit_eq]
  cases isNumber : (settings.get "maxHistoryEntries").number? with
  | none => rfl
  | some limit =>
      rw [Option.filter_some]
      by_cases isFinite : limit.isFinite = true
      · rw [if_pos isFinite]
        apply if_neg
        intro positive
        exact unset limit ⟨isNumber, isFinite, (zero_lt_iff isFinite).mp positive⟩
      · rw [if_neg isFinite]

/-- A limit that is set is rounded down to a whole number. -/
theorem SetsLimit.whole {settings : Json} (held : settings.Held) {limit : Number}
    (sets : SetsLimit settings limit) : (historyLimit settings).toInt? = some ⌊limit.value⌋ := by
  have isHeld := (held.get _).number_of sets.isNumber sets.isFinite
  obtain ⟨floorHeld, rounded⟩ := Number.floor_value isHeld
  rw [historyLimit_set sets]
  exact Number.toInt?_of_value floorHeld rounded

theorem limit_below_one {settings : Json} (held : settings.Held) (below : BelowOne settings) :
    (historyLimit settings).toInt? = some 0 := by
  obtain ⟨limit, sets, small⟩ := below
  rw [sets.whole held, Int.floor_eq_zero_iff.mpr ⟨sets.positive.le, small⟩]

theorem limit_from_one {settings : Json} (held : settings.Held) (notBelow : ¬BelowOne settings) :
    ∃ k : Nat, 1 ≤ k ∧ (historyLimit settings).toInt? = some (k : Int) := by
  by_cases isSet : ∃ limit, SetsLimit settings limit
  · obtain ⟨limit, sets⟩ := isSet
    have atLeastOne : 1 ≤ ⌊limit.value⌋ := by
      rw [Int.le_floor, Int.cast_one]
      exact not_lt.mp fun small => notBelow ⟨limit, sets, small⟩
    refine ⟨⌊limit.value⌋.toNat, by omega, ?_⟩
    rw [sets.whole held, Int.toNat_of_nonneg (by omega)]
  · refine ⟨50, by decide, ?_⟩
    rw [historyLimit_unset (not_exists.mp isSet)]
    decide +kernel

/-! Requests. -/

section Requests

variable (world : World) (state : EngineState) (c : Context)

/-- The word is a number, and the session answers with an entry. -/
def FindsNumber : Prop :=
  (searchedText c.word ≠ [] ∧ (searchedText c.word).all Text.isDigit) ∧
  ∃ values after entry, Engine.run world state (Engine.query c.session
      { command := "Get-History",
        parameters := [("Id", .number (Number.ofText (searchedText c.word)))] }) = (.ok values, after) ∧
    entry ∈ values.filterMap HistoryEntry.ofValue?

/-- The word is no number, and the session answers with an entry that matches it. -/
def FindsText : Prop :=
  ¬(searchedText c.word ≠ [] ∧ (searchedText c.word).all Text.isDigit) ∧
  ∃ values after pattern entry,
    Engine.run world state (Engine.query c.session { command := "Get-History" }) =
      (.ok values, after) ∧
    Pattern.compile ("*" ++ searchedText c.word ++ "*") = .ok pattern ∧
    entry ∈ values.filterMap HistoryEntry.ofValue? ∧ pattern.test entry.commandLine = true

end Requests

variable {world : World} {state : EngineState} {c : Context}

/-- A number lists its entry, whatever the limit is. -/
theorem number_listed (finds : FindsNumber world state c) :
    ∃ result after, Engine.run world state (history c) = (.ok [result], after) := by
  obtain ⟨isNumber, values, after, entry, answered, listed⟩ := finds
  have branch : (!(searchedText c.word).isEmpty && (searchedText c.word).all Text.isDigit) = true := by
    simpa [List.isEmpty_iff] using isNumber
  obtain ⟨value, isValue, isEntry⟩ := List.mem_filterMap.mp listed
  obtain ⟨first, isFirst⟩ : ∃ first, values.findSome? HistoryEntry.ofValue? = some first := by
    rw [← Option.isSome_iff_exists, List.findSome?_isSome_iff]
    exact ⟨value, isValue, isEntry ▸ rfl⟩
  refine ⟨first.toResult, after, ?_⟩
  rw [history]
  change Engine.run world state (if (!(searchedText c.word).isEmpty &&
    (searchedText c.word).all Text.isDigit) = true then _ else _) = _
  rw [branch, if_pos rfl, Engine.run_bind]
  change Engine.goOn world _ (Engine.run world state (Engine.query c.session
      { command := "Get-History",
        parameters := [("Id", .number (Number.ofText (searchedText c.word)))] })) = _
  rw [answered, Engine.goOn_ok, isFirst]
  rfl

/-- A text lists as many of its entries as the limit allows, and there is at least one. -/
theorem text_listed (finds : FindsText world state c) {k : Nat}
    (isLimit : c.options.maxHistoryEntries.toInt? = some (k : Int)) :
    ∃ result rest after,
      Engine.run world state (history c) = (.ok ((result :: rest).take k), after) := by
  obtain ⟨isText, values, after, pattern, entry, answered, compiled, listed, isMatch⟩ := finds
  rw [run_history isText answered, compiled]
  dsimp only
  rw [takeUpTo_whole isLimit]
  have isSorted := (insertionSort_perm (fun a b : HistoryEntry => b.id.lt a.id) _).mem_iff.mpr listed
  have isFound := List.mem_filter (p := fun e => pattern.test e.commandLine).mpr ⟨isSorted, isMatch⟩
  obtain ⟨result, isResult, -⟩ := exists_mem_dedupeBy (fun r : Result => Text.lower r.text)
    (List.mem_map_of_mem (f := HistoryEntry.toResult) isFound)
  cases found : Result.dedupe _ with
  | nil =>
      rw [← Result.dedupe, found] at isResult
      cases isResult
  | cons first rest => exact ⟨first, rest, after, rfl⟩

/-- A limit below one switches the search through the history off, and every other setting leaves a
limit of at least one, under which whoever finds an entry is shown one. -/
theorem history_off_only_below_one {settings : Json} (held : settings.Held) :
    (BelowOne settings → (historyLimit settings).toInt? = some 0 ∧
      ∀ world state c, c.options = Options.ofOverrides (Configuration.readOptions settings) →
        FindsText world state c →
        ∃ after, Engine.run world state (history c) = (.ok [], after)) ∧
    (¬BelowOne settings →
      (∃ k : Nat, 1 ≤ k ∧ (historyLimit settings).toInt? = some (k : Int)) ∧
      ∀ world state c, c.options = Options.ofOverrides (Configuration.readOptions settings) →
        FindsNumber world state c ∨ FindsText world state c →
        ∃ result rest after, Engine.run world state (history c) = (.ok (result :: rest), after)) := by
  constructor
  · intro below
    have isZero := limit_below_one held below
    refine ⟨isZero, fun world state c isSetting finds => ?_⟩
    rw [historyLimit, ← isSetting] at isZero
    obtain ⟨result, rest, after, ran⟩ := text_listed finds (k := 0) isZero
    exact ⟨after, ran⟩
  · intro notBelow
    obtain ⟨k, positive, isLimit⟩ := limit_from_one held notBelow
    refine ⟨⟨k, positive, isLimit⟩, fun world state c isSetting finds => ?_⟩
    rcases finds with number | text
    · obtain ⟨result, after, ran⟩ := number_listed number
      exact ⟨result, [], after, ran⟩
    · rw [historyLimit, ← isSetting] at isLimit
      obtain ⟨result, rest, after, ran⟩ := text_listed text isLimit
      obtain ⟨n, rfl⟩ := Nat.exists_eq_add_of_le' positive
      exact ⟨result, rest.take n, after, ran⟩

/-! Limits of one half and of one and a half. -/

/-- The search for items under the options of a settings section. -/
def limitedSearch (settings : Json) : Context :=
  { itemSearch with options := Options.ofOverrides (Configuration.readOptions settings) }

theorem limitedSearch_finds (settings : Json) : FindsText bareWorld {} (limitedSearch settings) := by
  have isText : ¬(searchedText "#item" ≠ [] ∧ (searchedText "#item").all Text.isDigit) := by
    decide +kernel
  have accepted : begins ("*" ++ searchedText "#item") "Set-Item b" = true := by decide +kernel
  obtain ⟨pattern, compiled, isMatch⟩ := begins_iff.mp accepted
  refine ⟨isText, itemHistory, { queries := [{ command := "Get-History" }] }, pattern,
    { id := .ofNat 3, commandLine := "Set-Item b" }, rfl, compiled, ?_, isMatch⟩
  exact List.mem_filterMap.mpr ⟨historyValue 3 "Set-Item b", by simp [itemHistory], rfl⟩

def half : Number := .finite false (2 ^ 52) (-53)

theorem half_is_read : ∃ settings, Json.read? "\x7b\"maxHistoryEntries\": 0.5\x7d" = some settings ∧
    SetsLimit settings half := by
  have isRead : ((Json.read? "\x7b\"maxHistoryEntries\": 0.5\x7d").bind fun settings =>
      (settings.get "maxHistoryEntries").number?) = some half := by decide +kernel
  obtain ⟨settings, isSettings, isNumber⟩ := Option.bind_eq_some_iff.mp isRead
  exact ⟨settings, isSettings, isNumber, rfl, by norm_num [half, Number.value]⟩

theorem half_switches_history_off :
    ∃ settings, Json.read? "\x7b\"maxHistoryEntries\": 0.5\x7d" = some settings ∧
      (historyLimit settings).toInt? = some 0 ∧
      FindsText bareWorld {} (limitedSearch settings) ∧
      ∃ after, Engine.run bareWorld {} (history (limitedSearch settings)) = (.ok [], after) := by
  obtain ⟨settings, isRead, sets⟩ := half_is_read
  have isZero : (historyLimit settings).toInt? = some 0 := by
    rw [historyLimit_set sets]
    decide +kernel
  have finds := limitedSearch_finds settings
  obtain ⟨result, rest, after, ran⟩ := text_listed finds (k := 0) isZero
  exact ⟨settings, isRead, isZero, finds, after, ran⟩

theorem one_and_a_half_lists_history :
    ∃ settings, Json.read? "\x7b\"maxHistoryEntries\": 1.5\x7d" = some settings ∧ settings.Held ∧
      ¬BelowOne settings ∧ FindsText bareWorld {} (limitedSearch settings) ∧
      ∃ result rest after, Engine.run bareWorld {} (history (limitedSearch settings)) =
        (.ok (result :: rest), after) := by
  have isRead : ((Json.read? "\x7b\"maxHistoryEntries\": 1.5\x7d").bind fun settings =>
      (settings.get "maxHistoryEntries").number?) = some (.finite false (3 * 2 ^ 51) (-52)) := by
    decide +kernel
  obtain ⟨settings, isSettings, isNumber⟩ := Option.bind_eq_some_iff.mp isRead
  have held := Json.read?_held isSettings
  have notBelow : ¬BelowOne settings := by
    rintro ⟨limit, sets, small⟩
    cases sets.isNumber.symm.trans isNumber
    norm_num [Number.value] at small
  have finds := limitedSearch_finds settings
  exact ⟨settings, isSettings, held, notBelow, finds,
    ((history_off_only_below_one held).2 notBelow).2 _ _ _ rfl (Or.inr finds)⟩

end TabCompletion
