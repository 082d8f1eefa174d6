import TabCompletion.Proofs.Completion.Offered
import TabCompletion.Proofs.Quoting.Lowering

/-!
Completion of values. Candidates whose values differ in more than letter case are listed in an order
that does not depend on how they were given, and no two of them are written alike, so that none is
taken for the repetition of another.
-/

namespace TabCompletion

open Wildcard

/-! The order of candidates. -/

/-- The one candidate comes before the other for a word: an exact match before all others, and these
in strict order of their lower-case values. -/
def Candidate.Precedes (word : Text) (a b : Candidate) : Prop :=
  Text.lower b.value ≠ Text.lower word ∧ (Text.lower a.value = Text.lower word ∨
    Text.compare (Text.lower a.value) (Text.lower b.value) = .lt)

variable {word : Text} {candidates others : List Candidate}

theorem Candidate.Precedes.asymm {a b : Candidate} (precedes : a.Precedes word b) :
    ¬b.Precedes word a := by
  rintro ⟨notExact, exactB | backwards⟩
  · exact precedes.1 exactB
  · have forwards := precedes.2.resolve_left notExact
    rw [Text.compare_swap, backwards] at forwards
    cases forwards

/-- Candidates of distinct values are arranged strictly: there is at most one exact match. -/
theorem arranged_precede (distinct : (candidates.map fun c => Text.lower c.value).Nodup) :
    (ValueOrder.exactFirst.arrange word candidates).Pairwise (Candidate.Precedes word) := by
  have apart : ∀ {part : List Candidate}, part.Sublist candidates →
      part.Pairwise fun a b => Text.lower a.value ≠ Text.lower b.value :=
    fun part => List.pairwise_map.mp (distinct.sublist (part.map _))
  have isRest : ∀ c : Candidate, c ∈ sortIgnoringCase (fun c : Candidate => c.value)
      (candidates.filter fun c => !(Text.lower c.value == Text.lower word)) →
      Text.lower c.value ≠ Text.lower word := by
    intro c listed isExact
    have isOther := (List.mem_filter.mp (mem_sortIgnoringCase.mp listed)).2
    rw [isExact, beq_self_eq_true] at isOther
    cases isOther
  refine List.pairwise_append.mpr ⟨?_, ?_, fun a isFirst b isSecond => ?_⟩
  · -- Two exact matches would have one lower-case value.
    refine (apart List.filter_sublist).imp_of_mem fun {a b} isFirst isSecond differ => absurd ?_ differ
    exact (beq_iff_eq.mp (List.mem_filter.mp isFirst).2).trans
      (beq_iff_eq.mp (List.mem_filter.mp isSecond).2).symm
  · have strict := sortIgnoringCase_strict (fun c : Candidate => c.value)
      (candidates.filter fun c => !(Text.lower c.value == Text.lower word))
      (distinct.sublist (List.filter_sublist.map _))
    exact strict.imp_of_mem fun {a b} _ isSecond before => ⟨isRest b isSecond, Or.inr before⟩
  · exact ⟨isRest b isSecond, Or.inl (beq_iff_eq.mp (List.mem_filter.mp isFirst).2)⟩

theorem arrange_perm (word : Text) (candidates : List Candidate) :
    (ValueOrder.exactFirst.arrange word candidates).Perm candidates :=
  ((sortIgnoringCase_perm _ _).append_left _).trans (List.filter_append_perm _ candidates)

/-- Candidates of distinct values are arranged alike however they were given. -/
theorem arrange_eq_of_perm (distinct : (candidates.map fun c => Text.lower c.value).Nodup)
    (perm : others.Perm candidates) : ValueOrder.exactFirst.arrange word others =
      ValueOrder.exactFirst.arrange word candidates := by
  have distinctOthers := (perm.map fun c : Candidate => Text.lower c.value).nodup_iff.mpr distinct
  refine List.Perm.eq_of_pairwise (fun a b _ _ before behind => absurd behind before.asymm)
    (arranged_precede distinctOthers) (arranged_precede distinct) ?_
  exact (arrange_perm word others).trans (perm.trans (arrange_perm word candidates).symm)

/-! The listing. -/

def Candidate.shown (quote : Quoting.Quote) (c : Candidate) : Result :=
  Result.of (quoteValue c.value quote) .parameterValue c.value (c.toolTip.getD c.value)

/-- These are the candidates that a pattern matches, each once and in their order for a word, and no
two of them are written alike up to letter case. -/
structure ListsValues (pattern : Pattern) (quote : Quoting.Quote) (word : Text)
    (candidates listed : List Candidate) : Prop where
  perm : listed.Perm (candidates.filter fun c => pattern.test c.value)
  ordered : listed.Pairwise (Candidate.Precedes word)
  written : (listed.map fun c => Text.lower (c.shown quote).text).Nodup

theorem shown_distinct (quote : Quoting.Quote)
    (distinct : (candidates.map fun c => Text.lower c.value).Nodup) :
    (candidates.map fun c => Text.lower (c.shown quote).text).Nodup := by
  refine List.pairwise_map.mpr ((List.pairwise_map.mp distinct).imp fun {a b} differ same => ?_)
  exact differ (Quoting.lower_quoteValue_injective same)

variable {pattern : Pattern}

def valueResults (pattern : Pattern) (word : Text) (candidates : List Candidate) : List Result :=
  Result.dedupe ((ValueOrder.exactFirst.arrange (Quoting.strip word).2
    (candidates.filter fun c => pattern.test c.value)).map (Candidate.shown (Quoting.strip word).1))

theorem completeValues_eq (word : Text) (candidates : List Candidate) :
    completeValues candidates word =
      (compilePattern ((Quoting.strip word).2 ++ "*")).map (valueResults · word candidates) := by
  cases compiled : compilePattern ((Quoting.strip word).2 ++ "*") <;>
    simp only [completeValues, compiled] <;> rfl

/-- Where the values are distinct, the candidates that match are listed, and none is left out. -/
theorem valueResults_lists (distinct : (candidates.map fun c => Text.lower c.value).Nodup)
    (pattern : Pattern) (word : Text) :
    ∃ listed, ListsValues pattern (Quoting.strip word).1 (Quoting.strip word).2 candidates listed ∧
      ∀ others, others.Perm candidates →
        valueResults pattern word others = listed.map (Candidate.shown (Quoting.strip word).1) := by
  have matching := distinct.sublist
    ((List.filter_sublist (p := fun c : Candidate => pattern.test c.value)).map _)
  have perm := arrange_perm (Quoting.strip word).2 (candidates.filter fun c => pattern.test c.value)
  have written := shown_distinct (Quoting.strip word).1
    ((perm.map fun c : Candidate => Text.lower c.value).nodup_iff.mpr matching)
  refine ⟨_, ⟨perm, arranged_precede matching, written⟩, fun others isPerm => ?_⟩
  rw [valueResults, arrange_eq_of_perm matching (isPerm.filter _)]
  refine dedupeBy_of_distinct ?_
  rw [List.map_map]
  exact written

/-- Candidates whose values differ in more than letter case are listed alike in whatever order they
are given. Unless the word is refused as the start of a pattern, the results are one for each candidate
that it matches, an exact match first and the others in strict order of their lower-case values. -/
theorem values_ignore_order (distinct : (candidates.map fun c => Text.lower c.value).Nodup)
    (word : Text) :
    (∀ error, Pattern.compile ((Quoting.strip word).2 ++ "*") = .error error →
      ∀ others, others.Perm candidates → completeValues others word = .error (.pattern error)) ∧
    ∀ pattern, Pattern.compile ((Quoting.strip word).2 ++ "*") = .ok pattern → ∃ listed,
      ListsValues pattern (Quoting.strip word).1 (Quoting.strip word).2 candidates listed ∧
      ∀ others, others.Perm candidates →
        completeValues others word = .ok (listed.map (Candidate.shown (Quoting.strip word).1)) := by
  constructor
  · intro error refused others _
    rw [completeValues_eq, compilePattern, refused]
    rfl
  · intro pattern compiled
    obtain ⟨listed, lists, alike⟩ := valueResults_lists distinct pattern word
    refine ⟨listed, lists, fun others isPerm => ?_⟩
    rw [completeValues_eq, compilePattern, compiled, ← alike others isPerm]
    rfl

/-- Values of which the second is an exact match of the letter and the third holds a quote. -/
def oValues : List Candidate := [{ value := "on" }, { value := "O" }, { value := "o'clock" }]

theorem oValues_listed :
    (oValues.map fun c => Text.lower c.value).Nodup ∧ ∃ pattern listed,
      Pattern.compile "o*" = .ok pattern ∧ ListsValues pattern .single "o" oValues listed ∧
      completeValues oValues.reverse "'o" = .ok (listed.map (Candidate.shown .single)) := by
  have distinct : (oValues.map fun c => Text.lower c.value).Nodup := by decide +kernel
  have accepted : begins "o" "on" = true := by decide +kernel
  obtain ⟨pattern, compiled, -⟩ := begins_iff.mp accepted
  obtain ⟨-, listing⟩ := values_ignore_order distinct "'o"
  obtain ⟨listed, lists, alike⟩ := listing pattern compiled
  exact ⟨distinct, pattern, listed, compiled, lists, alike _ (List.reverse_perm oValues)⟩

end TabCompletion
