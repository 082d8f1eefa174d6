import TabCompletion.Proofs.Completion.Values
import TabCompletion.Proofs.Quoting.Stripping
import TabCompletion.Proofs.Wildcard.Backticks
import TabCompletion.Proofs.Wildcard.Outline

/-!
Values that were accepted. The text of a value is read as a word again: its outer quotes are taken
away, and what they hold becomes a pattern. A value that this pattern stands for is offered again,
with the same text and in spite of candidates that differ from it in letter case only.
-/

namespace TabCompletion

open Wildcard
open Quoting (Quote)
open Text (SameLetters)

/-! The texts of values. -/

section Texts

variable {a b value : Text} {quote : Quote}

/-- The quote that a value is written in. -/
def valueQuote (value : Text) (quote : Quote) : Quote :=
  match quote with
  | .none => if Quoting.needed value then .single else .none
  | _ => quote

theorem quoteValue_eq (value : Text) (quote : Quote) :
    quoteValue value quote = (valueQuote value quote).wrap value := by
  cases quote with
  | none =>
      rw [quoteValue, valueQuote]
      split <;> rfl
  | single | double => rfl

theorem bare_of_valueQuote (unquoted : valueQuote value quote = .none) :
    quote = .none ∧ Quoting.needed value = false := by
  cases quote with
  | none =>
      rw [valueQuote] at unquoted
      split at unquoted
      · cases unquoted
      next bare => exact ⟨rfl, Bool.eq_false_iff.mpr bare⟩
  | single | double => cases unquoted

/-- Without its outer quotes the text of a value is what was written between them. -/
theorem strip_quoteValue (value : Text) (quote : Quote) :
    Quoting.strip (quoteValue value quote) =
      (valueQuote value quote, (valueQuote value quote).inside value) := by
  rw [quoteValue_eq]
  by_cases quoted : valueQuote value quote = .none
  · have bare := (bare_of_valueQuote quoted).2
    rw [quoted]
    exact Quoting.strip_of_unopened (Quoting.opening_of_not_needed bare)
  · rw [Quoting.wrap_eq, Quoting.strip_between quoted]

/-- In the quote that a value was written in it is written alike. -/
theorem quoteValue_again (value : Text) (quote : Quote) :
    quoteValue value (valueQuote value quote) = quoteValue value quote := by
  cases quote with
  | none =>
      by_cases needed : Quoting.needed value = true
      · rw [valueQuote, if_pos needed]
        exact (if_pos needed).symm
      · rw [valueQuote, if_neg needed]
  | single | double => rfl

theorem quoteValue_injective (same : quoteValue a quote = quoteValue b quote) : a = b := by
  have stripped := congrArg Quoting.strip same
  rw [strip_quoteValue, strip_quoteValue, Prod.mk.injEq] at stripped
  rw [quoteValue_eq, quoteValue_eq, stripped.1] at same
  exact Quoting.wrap_injective same

end Texts

/-! What is offered. -/

section Offered

variable {candidates : List Candidate} {word value text : Text}

/-- The results for a word have one with this text for the value. -/
def Offers (candidates : List Candidate) (word value text : Text) : Prop :=
  ∃ results, completeValues candidates word = .ok results ∧
    ∃ c ∈ candidates, c.value = value ∧ c.shown (Quoting.strip word).1 ∈ results ∧
      (c.shown (Quoting.strip word).1).text = text

theorem arrange_stable (word : Text) (items : List Candidate) (lowered : Text) :
    (ValueOrder.exactFirst.arrange word items).filter (fun c => Text.lower c.value = lowered) =
      items.filter fun c => Text.lower c.value = lowered := by
  rw [ValueOrder.arrange, sortExactFirst, List.filter_append, sortIgnoringCase_stable,
    List.filter_filter, List.filter_filter]
  by_cases exactly : lowered = Text.lower word
  · have none : items.filter (fun c => decide (Text.lower c.value = lowered) &&
        !(Text.lower c.value == Text.lower word)) = [] :=
      List.filter_eq_nil_iff.mpr fun c _ => by simp [exactly]
    rw [none, List.append_nil]
    exact List.filter_congr fun c _ => by simp [exactly]
  · have none : items.filter (fun c => decide (Text.lower c.value = lowered) &&
        Text.lower c.value == Text.lower word) = [] := by
      refine List.filter_eq_nil_iff.mpr fun c _ both => exactly ?_
      simp only [Bool.and_eq_true, decide_eq_true_eq, beq_iff_eq] at both
      exact both.1.symm.trans both.2
    rw [none, List.nil_append]
    refine List.filter_congr fun c _ => ?_
    by_cases isKey : Text.lower c.value = lowered
    · simp [isKey, exactly]
    · simp [isKey]

/-- The first of some candidates that are alike up to letter case stays the first. -/
theorem find?_arrange (word : Text) (items : List Candidate) {lowered : Text} {p : Candidate → Bool}
    (alike : ∀ c, p c = true → Text.lower c.value = lowered) :
    (ValueOrder.exactFirst.arrange word items).find? p = items.find? p := by
  have narrowed : ∀ l : List Candidate,
      (l.filter fun c => Text.lower c.value = lowered).find? p = l.find? p := by
    intro l
    rw [List.find?_filter]
    congr 1
    funext c
    cases isTaken : p c with
    | false => simp
    | true => simp [alike c isTaken]
  rw [← narrowed, arrange_stable, narrowed]

/-- Whether a candidate matches a word and is written like the value up to letter case. -/
def takes (word value : Text) (c : Candidate) : Bool :=
  begins (Quoting.strip word).2 c.value &&
    Text.lower (quoteValue c.value (Quoting.strip word).1) ==
      Text.lower (quoteValue value (Quoting.strip word).1)

/-- Of the results with one text the first is kept, and of the candidates of one value the first is
arranged first. -/
theorem mem_valueResults {pattern : Pattern}
    (compiled : Pattern.compile ((Quoting.strip word).2 ++ "*") = .ok pattern) (c : Candidate) :
    c.shown (Quoting.strip word).1 ∈ valueResults pattern word candidates ↔
      ∃ first, candidates.find? (takes word c.value) = some first ∧
        first.shown (Quoting.strip word).1 = c.shown (Quoting.strip word).1 := by
  have tests : ∀ other : Candidate,
      pattern.test other.value = begins (Quoting.strip word).2 other.value := by
    intro other
    rw [begins, compiled]
  have alike : ∀ other : Candidate,
      (Text.lower (other.shown (Quoting.strip word).1).text ==
        Text.lower (c.shown (Quoting.strip word).1).text) = true →
      Text.lower other.value = Text.lower c.value :=
    fun other same => Quoting.lower_quoteValue_injective (beq_iff_eq.mp same)
  rw [valueResults, Result.dedupe, mem_dedupeBy, List.find?_map, Option.map_eq_some_iff]
  simp only [Function.comp_def]
  rw [find?_arrange _ _ alike, List.find?_filter]
  simp only [tests, Bool.decide_and, Bool.decide_eq_true]
  rfl

/-- A value is offered if it is that of the first candidate that matches and is written like it up to
letter case. -/
theorem offers_iff : Offers candidates word value text ↔
    ∃ c, candidates.find? (takes word value) = some c ∧ c.value = value ∧
      quoteValue value (Quoting.strip word).1 = text := by
  rw [Offers, completeValues_eq, compilePattern]
  cases compiled : Pattern.compile ((Quoting.strip word).2 ++ "*") with
  | error error =>
      constructor
      · rintro ⟨results, ended, -⟩
        cases ended
      · rintro ⟨c, found, -⟩
        have taken := List.find?_some found
        rw [takes, begins, compiled] at taken
        cases taken
  | ok pattern =>
      constructor
      · rintro ⟨results, ended, c, listed, rfl, kept, isText⟩
        cases ended
        obtain ⟨first, found, same⟩ := (mem_valueResults compiled c).mp kept
        exact ⟨first, found, quoteValue_injective (congrArg Result.text same), isText⟩
      · rintro ⟨c, found, rfl, isText⟩
        exact ⟨_, rfl, c, List.mem_of_find?_eq_some found, rfl,
          (mem_valueResults compiled c).mpr ⟨c, found, rfl⟩, isText⟩

end Offered

/-! Texts of values as patterns. -/

section Written

variable {quote : Quote} {value : Text}

/-- Whether a unit gets a backtick between the quotes. -/
def isEscaped (quote : Quote) (u : CodeUnit) : Bool :=
  quote == .double && (u == '\x60' || u == '$' || Quoting.isDoubleQuote u)

/-- What stands between the quotes of a value, with a star behind it. -/
def writtenMarks (quote : Quote) (value : Text) : List Mark :=
  value.map (fun u => ⟨u, isEscaped quote u⟩) ++ [⟨'*', false⟩]

theorem marks_unescaped {t : Text} (plain : ∀ u ∈ t, u ≠ '\x60') (rest : Text) :
    marks (t ++ rest) = t.map (fun u => ⟨u, false⟩) ++ marks rest := by
  induction t with
  | nil => rfl
  | cons u more ih =>
      obtain ⟨here, later⟩ := List.forall_mem_cons.mp plain
      rw [List.cons_append, marks_plain here, ih later]
      rfl

theorem marks_escapeDouble (t rest : Text) :
    marks (Quoting.escapeDouble t ++ rest) =
      t.map (fun u => ⟨u, isEscaped .double u⟩) ++ marks rest := by
  induction t with
  | nil => rfl
  | cons u more ih =>
      have split : Quoting.escapeDouble (u :: more) =
          (if u == '\x60' || u == '$' || Quoting.isDoubleQuote u then ([('\x60' : CodeUnit), u] : Text)
            else [u]) ++ Quoting.escapeDouble more := List.flatMap_cons
      rw [split, List.append_assoc, List.map_cons, List.cons_append, ← ih]
      cases escaped : u == '\x60' || u == '$' || Quoting.isDoubleQuote u with
      | true =>
          have isMark : isEscaped .double u = true := escaped
          rw [isMark]
          rfl
      | false =>
          have isMark : isEscaped .double u = false := escaped
          have plain : u ≠ '\x60' := by
            rintro rfl
            cases escaped
          rw [isMark]
          exact marks_plain plain _

/-- Between the quotes of a value a pattern finds the value again, unless a single quote was doubled
or a backtick is taken for an escape. -/
theorem marks_inside (unescaped : quote = .double ∨
    ∀ u ∈ value, Quoting.isSingleQuote u = false ∧ u ≠ '\x60') :
    marks (quote.inside value ++ "*") = writtenMarks quote value := by
  rcases unescaped with rfl | plain
  · exact marks_escapeDouble value _
  · have bare := marks_unescaped (fun u listed => (plain u listed).2) (Text.ofString "*")
    cases quote with
    | none => exact bare
    | double => exact marks_escapeDouble value _
    | single =>
        have undoubled : Quoting.escapeSingle value = value := by
          rw [Quoting.escapeSingle]
          refine (List.flatMap_congr fun u listed => ?_).trans (List.flatMap_singleton' value)
          rw [(plain u listed).1]
          rfl
        rw [Quoting.Quote.inside, undoubled]
        exact bare

theorem signs_written (quote : Quote) (value : Text) :
    (writtenMarks quote value).map Mark.sign = value.map unitSign ++ [.many] := by
  rw [writtenMarks, List.map_append, List.map_map]
  refine congrArg (· ++ [Sign.many]) (List.map_congr_left fun u _ => ?_)
  rw [Function.comp_apply]
  cases escaped : isEscaped quote u with
  | false => rfl
  | true =>
      have tame : wildUnit? u = none := by
        refine if_neg ?_
        rintro (rfl | rfl)
        · cases quote <;> cases escaped
        · cases quote <;> cases escaped
      rw [unitSign_tame tame]
      rfl

theorem units_written (quote : Quote) (value : Text) :
    (writtenMarks quote value).map Mark.unit = value ++ "*" := by
  rw [writtenMarks, List.map_append, List.map_map]
  exact congrArg (· ++ Text.ofString "*") (List.map_id value)

theorem barless_written (quote : Quote) (value : Text) :
    Mark.mk '|' true ∉ writtenMarks quote value := by
  rw [writtenMarks, List.mem_append, List.mem_map, not_or]
  constructor
  · rintro ⟨u, -, same⟩
    rw [Mark.mk.injEq] at same
    obtain ⟨rfl, escaped⟩ := same
    cases quote <;> cases escaped
  · decide

/-- A slash is written as its stand-in is. -/
theorem glob_written_slash (quote : Quote) (value : Text) :
    glob (writtenMarks quote (value.map slash)) = glob (writtenMarks quote value) := by
  rw [writtenMarks, writtenMarks, List.map_map, glob, glob, List.flatMap_append,
    List.flatMap_append, List.flatMap_map, List.flatMap_map]
  refine congrArg (· ++ _) (List.flatMap_congr fun u _ => ?_)
  by_cases isSlash : u = '/'
  · rw [isSlash]
    cases quote <;> rfl
  · rw [Function.comp_apply, slash_of_ne isSlash]

/-- What a value needs to be found again by the pattern that its text becomes: it is not one of the
texts that no pattern with a star at its end takes, nothing in it is doubled or taken for an escape,
no bracket opens a class, and the pattern is not too long. -/
structure Survives (quote : Quote) (value : Text) : Prop where
  filled : value ≠ []
  noDots : isDots value = false
  unescaped : quote = .single → ∀ u ∈ value, Quoting.isSingleQuote u = false ∧ u ≠ '\x60'
  classless : opensClass (toGlob (quote.inside value ++ "*")) = false
  short : (toGlob (quote.inside value ++ "*")).length ≤ maxGlobLength

theorem begins_slashed {word s t : Text} (same : s.map slash = t.map slash) :
    begins word s = begins word t := by
  refine begins_congr ?_ word
  rw [same]
  exact List.forall₂_same.mpr fun _ _ => rfl

/-- The text of a value starts what the value stands for with a star behind it. -/
theorem begins_inside (survives : Survives quote value)
    (bare : quote = .none → Quoting.needed value = false) :
    ∃ plain : Text, slashStandIn ∉ plain ∧ plain.map slash = value.map slash ∧
      ∀ t : Text, slashStandIn ∉ t → (begins (quote.inside value) t = true ↔
        fits (unitwise false) (plain.map unitSign ++ [.many]) t = true ∧ t ≠ [] ∧
          isDots t = false) := by
  have unescaped : quote = .double ∨
      ∀ u ∈ value, Quoting.isSingleQuote u = false ∧ u ≠ '\x60' := by
    cases quote with
    | none =>
        refine Or.inr fun u listed => ?_
        have isBare := (Quoting.isBare_of_not_needed (bare rfl)).2 u listed
        refine ⟨isBare.2.1, ?_⟩
        rintro rfl
        exact isBare.2.2.2 (by decide)
    | single => exact Or.inr (survives.unescaped rfl)
    | double => exact Or.inl rfl
  -- In the pattern the slashes of the value cannot be told from their stand-ins.
  obtain ⟨plain, unmixed, same⟩ := exists_unmixed value
  have written : toGlob (quote.inside value ++ "*") = glob (writtenMarks quote plain) := by
    rw [toGlob_eq, marks_inside unescaped, ← glob_written_slash, ← same, glob_written_slash]
  have classless := survives.classless
  have short := survives.short
  rw [written] at classless short
  have unmixedMarks : slashStandIn ∉ (writtenMarks quote plain).map Mark.unit := by
    rw [units_written, List.mem_append, not_or]
    exact ⟨unmixed, by decide⟩
  have starred : writtenMarks quote plain =
      plain.map (fun u => ⟨u, isEscaped quote u⟩) ++ [⟨'*', false⟩] := rfl
  obtain ⟨matcher, compiled, means⟩ := compileGlob_means starred
    (legible_of_classless (barless_written quote plain) classless) unmixedMarks short false
  refine ⟨plain, unmixed, same, fun t isText => ?_⟩
  have tested : begins (quote.inside value) t = matcher.test (t.map slash) := by
    rw [begins, Pattern.compile, written, compiled]
    rfl
  rw [tested, means t isText, signs_written]

/-- The text of a value starts the value. -/
theorem begins_itself (survives : Survives quote value)
    (bare : quote = .none → Quoting.needed value = false) :
    begins (quote.inside value) value = true := by
  obtain ⟨plain, unmixed, same, means⟩ := begins_inside survives bare
  have filled : plain ≠ [] := by
    rintro rfl
    exact survives.filled (List.map_eq_nil_iff.mp same.symm)
  rw [begins_slashed same.symm]
  refine (means plain unmixed).mpr ⟨fits_itself false plain, filled, ?_⟩
  rw [← isDots_slashed, same, isDots_slashed, survives.noDots]

/-- What else the text of a value starts has the same letters, if lower case makes it the same. -/
theorem sameLetters_of_begins (survives : Survives quote value)
    (bare : quote = .none → Quoting.needed value = false) {other : Text}
    (lowered : Text.lower other = Text.lower value)
    (starts : begins (quote.inside value) other = true) :
    SameLetters (value.map slash) (other.map slash) := by
  obtain ⟨plain, -, same, means⟩ := begins_inside survives bare
  obtain ⟨plain', unmixed', same'⟩ := exists_unmixed other
  rw [begins_slashed same'.symm] at starts
  have outlines : plain.flatMap outline = plain'.flatMap outline := by
    rw [← outline_slash plain, same, outline_slash, ← outline_of_lower lowered,
      ← outline_slash other, ← same', outline_slash]
  rw [← same, ← same']
  exact sameLetters_slashed (sameLetters_of_fits outlines ((means plain' unmixed').mp starts).1)

end Written

/-! Units that must be quoted. -/

section Needed

variable {u w : CodeUnit} {s t : Text}

def needsQuote (u : CodeUnit) : Bool := Quoting.isSpecial u || Quoting.isBracket u

theorem needed_eq (t : Text) : Quoting.needed t = (t.isEmpty || t.any needsQuote) := by
  have both : ∀ l : Text,
      l.any needsQuote = (l.any Quoting.isSpecial || l.any Quoting.isBracket) := by
    intro l
    induction l with
    | nil => rfl
    | cons u rest ih =>
        simp only [List.any_cons, ih, needsQuote]
        cases Quoting.isSpecial u <;> cases Quoting.isBracket u <;> simp
  rw [Quoting.needed, both, Bool.not_false, Bool.true_and, Bool.or_assoc]

/-- Beyond ASCII the units that must be quoted are spaces, line breaks and typographic quotes. -/
theorem needsQuote_beyond (needs : needsQuote u = true) (beyond : 0x80 ≤ u.toNat) :
    u.toNat ∈ List.range' 0x2000 0x60 ++ [0xA0, 0x1680, 0x3000, 0xFEFF] := by
  simp only [needsQuote, Quoting.isSpecial, Quoting.isBracket, Text.isSpace, Bool.or_eq_true,
    Bool.and_eq_true, decide_eq_true_eq, beq_iff_eq, UInt16.le_iff_toNat_le, ← UInt16.toNat_inj,
    Char.reduceToNat, UInt16.reduceOfNat, UInt16.reduceToNat] at needs
  simp only [List.mem_append, List.mem_range'_1, List.mem_cons, List.not_mem_nil, or_false]
  omega

/-- No letter stands among the units that must be quoted. -/
theorem caseless_of_needsQuote (needs : needsQuote u = true) :
    ¬Text.IsCapital u.toNat ∧ Text.unitClass u.toNat = u.toNat := by
  have ascii : ∀ p ∈ List.range 0x80, needsQuote (UInt16.ofNat p) = true →
      Text.lowerPoint p = [p] ∧ Text.unitClass p = p := by
    decide +kernel
  have outside : ∀ r ∈ Text.upperRuns ++ Text.lowerRuns,
      ((Nat.blt r.2.1 0x2000 || Nat.blt 0x205F r.1) && [0xA0, 0x1680, 0x3000, 0xFEFF].all fun p =>
        Nat.blt r.2.1 p || Nat.blt p r.1) = true :=
    List.all_eq_true.mp (by decide +kernel)
  by_cases small : u.toNat < 0x80
  · rw [Text.IsCapital, not_not]
    exact ascii u.toNat (List.mem_range.mpr small) (by rwa [UInt16.ofNat_toNat])
  · have listed := needsQuote_beyond needs (Nat.le_of_not_lt small)
    simp only [List.mem_append, List.mem_range'_1, List.mem_cons, List.not_mem_nil, or_false]
      at listed
    refine Text.caseless_of_untouched (by omega) (by omega) fun r isRun holds => ?_
    obtain ⟨above, below, -⟩ := holds
    have apart := outside r isRun
    simp only [List.all_cons, List.all_nil, Bool.and_true, Bool.and_eq_true, Bool.or_eq_true,
      Nat.blt_eq] at apart
    omega

theorem needsQuote_congr (same : Text.unitClass u.toNat = Text.unitClass w.toNat) :
    needsQuote u = needsQuote w := by
  have alone : ∀ {v v' : CodeUnit}, needsQuote v = true →
      Text.unitClass v'.toNat = Text.unitClass v.toNat → v' = v := by
    intro v v' needs equal
    have caseless := caseless_of_needsQuote needs
    exact alone_sign caseless.1 caseless.2 equal
  cases first : needsQuote u with
  | true => rw [alone first same.symm, first]
  | false =>
      cases second : needsQuote w with
      | false => rfl
      | true =>
          rw [alone second same, second] at first
          cases first

theorem needed_slashed (t : Text) : Quoting.needed (t.map slash) = Quoting.needed t := by
  have alike : ∀ u : CodeUnit, needsQuote (slash u) = needsQuote u := by
    intro u
    by_cases isSlash : u = '/'
    · rw [isSlash]
      rfl
    · rw [slash_of_ne isSlash]
  rw [needed_eq, needed_eq, List.any_map, List.isEmpty_map]
  simp only [Function.comp_def, alike]

/-- Of texts with the same letters both must be quoted or neither. -/
theorem needed_congr (same : SameLetters s t) : Quoting.needed s = Quoting.needed t := by
  have any : s.any needsQuote = t.any needsQuote := by
    induction same with
    | nil => rfl
    | cons first later ih => rw [List.any_cons, List.any_cons, needsQuote_congr first, ih]
  rw [needed_eq, needed_eq, any, isEmpty_congr same]

end Needed

/-! Accepted values. -/

section Accepted

variable {candidates : List Candidate} {word value text : Text}

/-- A candidate that takes the place of an accepted value would have taken it before. -/
theorem takes_before {quote : Quote} (survives : Survives (valueQuote value quote) value)
    {rest : Text} {c : Candidate} (starts : begins rest value = true)
    (again : begins ((valueQuote value quote).inside value) c.value = true)
    (written : Text.lower (quoteValue c.value (valueQuote value quote)) =
      Text.lower (quoteValue value (valueQuote value quote))) :
    begins rest c.value = true ∧
      Text.lower (quoteValue c.value quote) = Text.lower (quoteValue value quote) := by
  have lowered := Quoting.lower_quoteValue_injective written
  have same := sameLetters_of_begins survives (fun unquoted => (bare_of_valueQuote unquoted).2)
    lowered again
  refine ⟨(begins_congr same rest).symm.trans starts, ?_⟩
  have needed := needed_congr same
  rw [needed_slashed, needed_slashed] at needed
  have quoted : valueQuote c.value quote = valueQuote value quote := by
    cases quote with
    | none => rw [valueQuote, valueQuote, needed]
    | single | double => rfl
  rw [quoteValue_eq, quoteValue_eq value, quoted, Quoting.lower_wrap, Quoting.lower_wrap, lowered]

/-- A value that was accepted is offered again with the text that it was completed to, if its text is
one that the wildcard pattern undoes. -/
theorem accepted_value_offered (offered : Offers candidates word value text)
    (survives : Survives (Quoting.strip text).1 value) : Offers candidates text value text := by
  obtain ⟨c, found, isValue, rfl⟩ := offers_iff.mp offered
  rw [strip_quoteValue] at survives
  -- What takes its place among the candidates for its own text would have taken it before.
  obtain ⟨taken, front, back, split, before⟩ := List.find?_eq_some_iff_append.mp found
  rw [takes, isValue, beq_self_eq_true, Bool.and_true] at taken
  refine offers_iff.mpr ⟨c, ?_, isValue, ?_⟩
  · refine List.find?_eq_some_iff_append.mpr ⟨?_, front, back, split, fun other listed => ?_⟩
    · rw [takes, strip_quoteValue, isValue, beq_self_eq_true, Bool.and_true]
      exact begins_itself survives fun unquoted => (bare_of_valueQuote unquoted).2
    · rw [Bool.not_eq_true', Bool.eq_false_iff]
      intro again
      rw [takes, strip_quoteValue, Bool.and_eq_true, beq_iff_eq] at again
      have known := takes_before survives taken again.1 again.2
      have missed := before other listed
      rw [takes, known.1, beq_iff_eq.mpr known.2] at missed
      cases missed
  · rw [strip_quoteValue]
    exact quoteValue_again value _

/-- Two values that differ in letter case only, to be written in double quotes. -/
def prices : List Candidate := [{ value := "it's $5" }, { value := "IT'S $5" }]

theorem price_offered_again : Offers prices "\"IT" "it's $5" "\"it's \x60$5\"" ∧
    Survives (Quoting.strip "\"it's \x60$5\"").1 "it's $5" ∧
    Offers prices "\"it's \x60$5\"" "it's $5" "\"it's \x60$5\"" := by
  have offered : Offers prices "\"IT" "it's $5" "\"it's \x60$5\"" :=
    offers_iff.mpr ⟨_, List.find?_cons_of_pos (by decide +kernel), rfl, by decide +kernel⟩
  have survives : Survives (Quoting.strip "\"it's \x60$5\"").1 "it's $5" :=
    { filled := by decide
      noDots := by decide
      unescaped := by decide
      classless := by decide +kernel
      short := by decide +kernel }
  exact ⟨offered, survives, accepted_value_offered offered survives⟩

/-- A doubled quote is not undone when the text is read again, so that the value is not found. -/
theorem doubled_quote_is_lost :
    ¬∀ (candidates : List Candidate) (word value text : Text),
      Offers candidates word value text → ∃ again, Offers candidates text value again := by
  intro always
  have offered : Offers [{ value := "it's" }] "'it" "it's" "'it''s'" :=
    offers_iff.mpr ⟨_, List.find?_cons_of_pos (by decide +kernel), rfl, by decide +kernel⟩
  obtain ⟨again, found⟩ := always _ _ _ _ offered
  obtain ⟨c, isFirst, -⟩ := offers_iff.mp found
  rw [List.find?_cons_of_neg (by decide +kernel)] at isFirst
  cases isFirst

end Accepted

end TabCompletion
