import Mathlib.Data.List.Forall2
import TabCompletion.Proofs.Wildcard.Starred

/-!
Escaping. An escaped text has no wildcard and reads back as the text, and a pattern without
wildcards matches the one text that it is written for, letter case apart. Where case is ignored and
the pattern has letters, an escaped bar is the exception: it separates alternatives.
-/

namespace TabCompletion.Wildcard

/-! Reading an escaped text. -/

section Escaping

/-- The text that a pattern without wildcards is written for: every escaping backtick is dropped,
and a backtick at the end is kept. -/
def unescape (p : Text) : Text := (marks p).map Mark.unit

/-- A character that a pattern is wild for. -/
def Mark.isWild (m : Mark) : Bool := !m.escaped && isWildcard m.unit

theorem hasWildcards_eq (p : Text) : hasWildcards p = (marks p).any Mark.isWild := by
  fun_induction marks p with
  | case1 => rfl
  | case2 u => simp [hasWildcards, Mark.isWild]
  | case3 u v rest escape ih => rw [hasWildcards, if_pos escape, ih]; rfl
  | case4 u v rest plain ih => rw [hasWildcards, if_neg plain, ih]; rfl

theorem marks_plain {u : CodeUnit} (plain : u ≠ '\x60') (rest : Text) :
    marks (u :: rest) = ⟨u, false⟩ :: marks rest := by
  cases rest with
  | nil => rfl
  | cons v more => rw [marks, if_neg (by rwa [beq_iff_eq])]

def escapedMark (u : CodeUnit) : Mark := ⟨u, isWildcard u || u == '\x60'⟩

theorem marks_escape (s rest : Text) :
    marks (escape s ++ rest) = s.map escapedMark ++ marks rest := by
  induction s with
  | nil => rfl
  | cons u more ih =>
      simp only [escape, List.flatMap_cons, List.append_assoc] at ih ⊢
      by_cases needed : (isWildcard u || u == '\x60') = true
      · rw [if_pos needed, List.cons_append, List.cons_append, marks, if_pos (beq_self_eq_true _),
          List.nil_append, ih, List.map_cons, List.cons_append, escapedMark, needed]
      · have plain : u ≠ '\x60' := by
          rintro rfl
          exact needed rfl
        rw [if_neg needed, List.cons_append, marks_plain plain, List.nil_append, ih, List.map_cons,
          List.cons_append, escapedMark, Bool.eq_false_iff.mpr needed]

theorem marks_escape_alone (s : Text) : marks (escape s) = s.map escapedMark := by
  have read := marks_escape s []
  rwa [List.append_nil, marks, List.append_nil] at read

theorem hasWildcards_escape (s : Text) : hasWildcards (escape s) = false := by
  rw [hasWildcards_eq, marks_escape_alone, List.any_map, List.any_eq_false]
  intro u _
  cases wild : isWildcard u <;> simp [escapedMark, Mark.isWild, wild]

theorem units_escapedMark (s : Text) : (s.map escapedMark).map Mark.unit = s := by
  rw [List.map_map]
  exact List.map_id s

theorem unescape_escape (s : Text) : unescape (escape s) = s := by
  rw [unescape, marks_escape_alone, units_escapedMark]

end Escaping

/-! The same text. -/

section Same

/-- Two texts of one length whose units count as the same letters. -/
def Comparison.SameText (c : Comparison) : Text → Text → Prop :=
  List.Forall₂ fun u w => c.same u.toNat w.toNat = true

instance (c : Comparison) (s t : Text) : Decidable (c.SameText s t) :=
  inferInstanceAs (Decidable (List.Forall₂ _ s t))

variable {c : Comparison} {us t : Text}

theorem sameText_cons {u w : CodeUnit} :
    c.SameText (u :: us) (w :: t) ↔ c.same u.toNat w.toNat = true ∧ c.SameText us t :=
  List.forall₂_cons

theorem fits_units_iff : fits c (us.map .unit) t = true ↔ c.SameText us t := by
  induction us generalizing t with
  | nil => cases t <;> simp [fits, Comparison.SameText]
  | cons u more ih =>
      cases t with
      | nil => simp [fits, Comparison.SameText]
      | cons w rest =>
          rw [List.map_cons, fits_cons (by simp), Bool.and_eq_true, ih, sameText_cons]
          rfl

/-- Units and then a star stand for the texts that start with the units. -/
theorem fits_head_iff :
    fits c (us.map .unit ++ [.many]) t = true ↔ c.SameText us (t.take us.length) := by
  induction us generalizing t with
  | nil =>
      have stars : fits c [.many] t = true := fits_stars (by simp) (by simp)
      simp [stars, Comparison.SameText]
  | cons u more ih =>
      cases t with
      | nil => simp [fits, Comparison.SameText]
      | cons w rest =>
          rw [List.map_cons, List.cons_append, fits_cons (by simp), Bool.and_eq_true, ih,
            List.length_cons, List.take_succ_cons, sameText_cons]
          rfl

end Same

/-! Patterns without wildcards. -/

section Tame

variable {ms : List Mark}

/-- No mark is wild. -/
def Tame (ms : List Mark) : Prop := ∀ m ∈ ms, m.isWild = false

theorem tame_of_hasWildcards {p : Text} (wildless : hasWildcards p = false) : Tame (marks p) := by
  rw [hasWildcards_eq] at wildless
  exact fun m listed => Bool.eq_false_iff.mpr (List.any_eq_false.mp wildless m listed)

theorem Mark.sign_of_tame {m : Mark} (tame : m.isWild = false) : m.sign = .unit m.unit := by
  obtain ⟨u, escaped⟩ := m
  cases escaped with
  | true => rfl
  | false =>
      have ordinary : isWildcard u = false := tame
      simp only [isWildcard, Bool.or_eq_false_iff] at ordinary
      obtain ⟨⟨⟨star, question⟩, -⟩, -⟩ := ordinary
      rw [Mark.sign, if_neg Bool.false_ne_true, if_neg (Bool.eq_false_iff.mp star),
        if_neg (Bool.eq_false_iff.mp question)]

theorem Tame.signs (tame : Tame ms) : ms.map Mark.sign = (ms.map Mark.unit).map .unit := by
  rw [List.map_map]
  exact List.map_congr_left fun m listed => Mark.sign_of_tame (tame m listed)

theorem Tame.bare_ordinary (tame : Tame ms) {u : CodeUnit} (wild : isWildcard u = true) :
    Mark.mk u false ∉ ms := by
  intro listed
  have ordinary : isWildcard u = false := tame _ listed
  rw [wild] at ordinary
  contradiction

/-- No glob without wildcards starts with one. -/
theorem Tame.head_ordinary (tame : Tame ms) {u : CodeUnit} (wild : isWildcard u = true)
    (rest : Text) : glob ms ≠ u :: rest := by
  intro starts
  cases ms with
  | nil => simp [glob] at starts
  | cons m more =>
      have split : glob (m :: more) = m.glob ++ glob more := List.flatMap_cons
      have written := m.written
      rw [split] at starts
      generalize m.glob = g at written starts
      cases written with
      | slash =>
          obtain ⟨rfl, -⟩ := List.cons.inj starts
          exact absurd wild (by decide)
      | behind =>
          obtain ⟨rfl, -⟩ := List.cons.inj starts
          exact absurd wild (by decide)
      | bare =>
          obtain ⟨rfl, -⟩ := List.cons.inj starts
          exact tame.bare_ordinary wild List.mem_cons_self

theorem takeWhile_of_head {u : CodeUnit} {g : Text} (other : ∀ rest, g ≠ u :: rest) :
    g.takeWhile (fun (w : CodeUnit) => w == u) = [] := by
  cases g with
  | nil => rfl
  | cons w rest =>
      have differs : (w == u) = false := beq_false_of_ne fun same => other rest (by rw [same])
      simp [differs]

theorem Tame.simpleMatcher?_none (tame : Tame ms) (ignoreCase : Bool) :
    simpleMatcher? (glob ms) ignoreCase = none := by
  have noStars := takeWhile_of_head (tame.head_ordinary (u := '*') (by decide))
  have noMarks := takeWhile_of_head (tame.head_ordinary (u := '?') (by decide))
  have notLed : ¬(Text.startsWith (glob ms) "." = true ∧
      (!((glob ms).drop 1).isEmpty && ((glob ms).drop 1).all fun (u : CodeUnit) => u == '*') = true) := by
    rintro ⟨starts, stars⟩
    obtain ⟨rest, isDot⟩ := startsWith_iff.mp starts
    rw [isDot, List.drop_one, List.tail_cons, Bool.and_eq_true, Bool.not_eq_true',
      List.isEmpty_eq_false_iff] at stars
    obtain ⟨star, listed⟩ := List.exists_mem_of_ne_nil rest stars.1
    have isStar := fun u isRest => beq_iff_eq.mp (List.all_eq_true.mp stars.2 u isRest)
    -- A dot and stars are written as they are, and then a star is a wildcard.
    have bare : ∀ u ∈ glob ms, u ≠ '\\' ∧ u ≠ slashStandIn := by
      intro u isUnit
      rw [isDot, List.mem_cons] at isUnit
      rcases isUnit with rfl | isRest
      · decide
      · rw [isStar u isRest]
        decide
    have marked : Mark.mk star false ∈ ms := by
      rw [marks_of_bare bare, isDot]
      exact List.mem_map_of_mem (List.mem_cons_of_mem _ listed)
    rw [isStar star listed] at marked
    exact tame.bare_ordinary (by decide) marked
  rw [← Bool.and_eq_true] at notLed
  simp only [simpleMatcher?, noStars, noMarks, List.isEmpty_nil, Bool.not_true, Bool.false_and,
    Bool.false_eq_true, if_false, notLed]

theorem startsOpen_units (us : Text) : startsOpen ((us.map Sign.unit).map Sign.piece) = false := by
  rcases us with _ | ⟨u, _ | ⟨v, _ | ⟨w, rest⟩⟩⟩ <;>
    simp [startsOpen, Sign.piece, Piece.isBracket]

end Tame

/-! Literal text. -/

section Spoken

theorem join_concat (separator : Text) {pieces : List Text} (some : pieces ≠ []) (last : Text) :
    Text.join separator (pieces ++ [last]) = Text.join separator pieces ++ (separator ++ last) := by
  induction pieces with
  | nil => exact absurd rfl some
  | cons first rest ih =>
      cases rest with
      | nil => simp [Text.join]
      | cons second more =>
          have later := ih (List.cons_ne_nil _ _)
          simp only [Text.join, List.cons_append, List.intersperse_cons_cons, List.flatten_cons] at later ⊢
          rw [later]
          simp

theorem join_extended (separator : Text) (pieces : List Text) (last more : Text) :
    Text.join separator (pieces ++ [last ++ more]) =
      Text.join separator (pieces ++ [last]) ++ more := by
  cases pieces with
  | nil => simp [Text.join]
  | cons first rest =>
      rw [join_concat _ (List.cons_ne_nil _ _), join_concat _ (List.cons_ne_nil _ _)]
      simp only [List.append_assoc]

/-- What the alternatives read so far say when they are taken as one text. -/
def Compilation.spoken (state : Compilation) : Text :=
  literalText (state.pieces.reverse :: state.finished).reverse

theorem Compilation.spoken_adding (state : Compilation) (u : CodeUnit) (unitEscape : Bool) :
    (state.adding (.unit u) unitEscape).spoken = state.spoken ++ [slash u] := by
  simp only [spoken, literalText, adding, Sign.piece, List.reverse_cons, List.map_append,
    List.map_cons, List.map_nil, List.flatMap_append, List.flatMap_cons, List.flatMap_nil,
    List.append_nil, Text.unitsOfPoint_toNat]
  exact join_extended _ _ _ _

theorem Compilation.spoken_bar (state : Compilation) :
    { state with finished := state.pieces.reverse :: state.finished, pieces := [] }.spoken =
      state.spoken ++ [('|' : CodeUnit)] := by
  simp only [spoken, literalText, List.reverse_cons, List.reverse_nil, List.map_append,
    List.map_cons, List.map_nil, List.flatMap_nil]
  rw [join_concat _ (by simp)]
  rfl

variable {m : Mark} {g : Text} {ms : List Mark}

/-- Compiling a mark that is not wild adds what it says. -/
theorem run_tame_mark (written : Written m g) (tame : m.isWild = false) (fuel : Nat)
    (state : Compilation) (rest : Text) :
    ∃ next, Compilation.run (fuel + 1) state (g ++ rest) = Compilation.run fuel next rest ∧
      next.wild = state.wild ∧ next.spoken = state.spoken ++ [slash m.unit] := by
  by_cases bar : m = ⟨'|', true⟩
  · -- An escaped bar begins a new alternative; alternatives are joined by bars again.
    subst bar
    cases written with
    | behind notSlash literal => exact ⟨_, rfl, rfl, state.spoken_bar⟩
  · have plain : m.Plain := by
      refine ⟨?_, bar⟩
      rintro rfl
      exact absurd tame (by decide)
    obtain ⟨unitEscape, ran⟩ := run_mark written plain fuel state rest
    rw [Mark.sign_of_tame tame] at ran
    exact ⟨_, ran, Bool.or_false _, state.spoken_adding _ _⟩

theorem run_tame (tame : Tame ms) {fuel : Nat} (enough : ms.length ≤ fuel) (state : Compilation) :
    (Compilation.run fuel state (glob ms)).wild = state.wild ∧
      (Compilation.run fuel state (glob ms)).spoken =
        state.spoken ++ (ms.map Mark.unit).map slash := by
  induction ms generalizing fuel state with
  | nil => cases fuel <;> simp [glob, Compilation.run]
  | cons m rest ih =>
      cases fuel with
      | zero => simp at enough
      | succ fuel =>
          have split : glob (m :: rest) = m.glob ++ glob rest := List.flatMap_cons
          obtain ⟨next, stepped, sameWild, said⟩ :=
            run_tame_mark m.written (tame m List.mem_cons_self) fuel state (glob rest)
          obtain ⟨wild, spoken⟩ := ih (fun m isRest => tame m (List.mem_cons_of_mem _ isRest))
            (Nat.le_of_succ_le_succ enough) next
          rw [split, stepped, wild, sameWild, spoken, said, List.append_assoc]
          exact ⟨rfl, rfl⟩

end Spoken

/-! Compiling. -/

section Compiling

variable {ms : List Mark} {cs : Bool}

theorem Tame.not_stars (tame : Tame ms) : glob ms ≠ Text.ofString "**" :=
  tame.head_ordinary (u := '*') (by decide) _

/-- Without letters, or where case counts, a pattern without wildcards compiles to its text. -/
theorem compileGlob_exactly (tame : Tame ms) (short : (glob ms).length ≤ maxGlobLength)
    (uncased : cs = false → Text.upper (glob ms) = Text.lower (glob ms)) :
    compileGlob (glob ms) cs = .ok (.exactly ((ms.map Mark.unit).map slash)) := by
  by_cases nonempty : glob ms = []
  · have none : ms = [] :=
      List.length_eq_zero_iff.mp (Nat.le_zero.mp (by simpa [nonempty] using length_le_glob ms))
    rw [none]
    rfl
  · obtain ⟨wild, spoken⟩ := run_tame tame (Nat.le_succ_of_le (length_le_glob ms)) {}
    have isFilled : ¬(glob ms).isEmpty = true := by rwa [List.isEmpty_iff]
    have sameCase : (!cs && Text.upper (glob ms) != Text.lower (glob ms)) = false := by
      cases cs with
      | true => rfl
      | false => simp [uncased rfl]
    rw [compileGlob, if_neg (Nat.not_lt.mpr short), if_neg isFilled]
    simp only [beq_iff_eq, tame.not_stars, if_false, sameCase, wild]
    exact congrArg (fun text => Except.ok (Matcher.exactly text)) spoken

theorem compileGlob_shape (tame : Tame ms) (barless : Mark.mk '|' true ∉ ms)
    (short : (glob ms).length ≤ maxGlobLength)
    (cased : ¬(cs = false → Text.upper (glob ms) = Text.lower (glob ms))) :
    compileGlob (glob ms) cs =
      .ok (.shape [(ms.map Mark.sign).map Sign.piece] (unitwise cs) false) := by
  have plain : ∀ m ∈ ms, m.Plain := by
    intro m listed
    constructor
    · rintro rfl
      exact tame.bare_ordinary (by decide) listed
    · rintro rfl
      exact barless listed
  have nonempty : glob ms ≠ [] := by
    intro empty
    rw [empty] at cased
    exact cased fun _ => rfl
  have spelled : isLiteral ms cs = false := by
    rw [Bool.eq_false_iff]
    exact fun literal => cased ((isLiteral_iff ms cs).mp literal).2
  rw [compileGlob_marks (legible_of_plain plain) short nonempty tame.not_stars cs]
  simp only [spelled, Bool.false_eq_true, if_false, tame.simpleMatcher?_none, Option.getD_none]
  rw [tame.signs, startsOpen_units, Bool.false_and]

/-- A pattern without wildcards matches the text that it is written for. -/
theorem compileGlob_tame (tame : Tame ms) (unmixed : slashStandIn ∉ ms.map Mark.unit)
    (short : (glob ms).length ≤ maxGlobLength)
    (barless : cs = false → Text.upper (glob ms) ≠ Text.lower (glob ms) → Mark.mk '|' true ∉ ms) :
    ∃ matcher, compileGlob (glob ms) cs = .ok matcher ∧
      ∀ t : Text, slashStandIn ∉ t → (matcher.test (t.map slash) = true ↔
        (unitwise cs).SameText (ms.map Mark.unit) t) := by
  by_cases uncased : cs = false → Text.upper (glob ms) = Text.lower (glob ms)
  · refine ⟨_, compileGlob_exactly tame short uncased, fun t plain => ?_⟩
    have alone := fun u (listed : u ∈ ms.map Mark.unit) w => alone_in_glob uncased listed (w := w)
    rw [← fits_units_iff, fits_units unmixed plain alone, Matcher.test, beq_iff_eq]
  · have noBar : Mark.mk '|' true ∉ ms := by
      simp only [Classical.not_imp] at uncased
      exact barless uncased.1 uncased.2
    refine ⟨_, compileGlob_shape tame noBar short uncased, fun t plain => ?_⟩
    simp only [Matcher.test, matchesAll_signs (unmixed_signs unmixed) plain, Bool.false_and,
      Bool.not_false, Bool.true_and, List.any_nil, Bool.or_false]
    rw [tame.signs, fits_units_iff]

end Compiling

theorem unmixed_marks {p : Text} (plain : slashStandIn ∉ p) :
    slashStandIn ∉ (marks p).map Mark.unit := by
  intro listed
  obtain ⟨m, isMark, isUnit⟩ := List.mem_map.mp listed
  exact plain (isUnit ▸ unit_mem_of_marks isMark)

/-! Heads. -/

section Heads

/-- The marks of an escaped head and the star behind it. -/
def headMarks (s : Text) : List Mark := s.map escapedMark ++ [⟨'*', false⟩]

theorem marks_head (s : Text) : marks (escape s ++ "*") = headMarks s := marks_escape s _

theorem escaped_tame (s : Text) : Tame (s.map escapedMark) :=
  marks_escape_alone s ▸ tame_of_hasWildcards (hasWildcards_escape s)

theorem headMarks_plain (s : Text) : ∀ m ∈ headMarks s, m.Plain := by
  intro m listed
  rcases List.mem_append.mp listed with isHead | isStar
  · constructor
    · rintro rfl
      exact (escaped_tame s).bare_ordinary (by decide) isHead
    · rintro rfl
      obtain ⟨u, -, same⟩ := List.mem_map.mp isHead
      obtain ⟨rfl, escaped⟩ := Mark.mk.inj same
      exact absurd escaped (by decide)
  · rw [List.mem_singleton.mp isStar]
    exact ⟨by decide, by decide⟩

theorem signs_head (s : Text) : (headMarks s).map Mark.sign = s.map .unit ++ [.many] := by
  rw [headMarks, List.map_append, (escaped_tame s).signs, units_escapedMark]
  rfl

/-- The pattern of a head matches the texts that start with it, save the empty and the dot texts. -/
theorem forHead_matches (s : Text) (plain : slashStandIn ∉ s)
    (short : (toGlob (escape s ++ "*")).length ≤ maxGlobLength) :
    ∃ pattern, Pattern.forHead s = .ok pattern ∧ ∀ t : Text, slashStandIn ∉ t →
      (pattern.test t = true ↔ (unitwise false).SameText s (t.take s.length) ∧
        t ≠ [] ∧ t ≠ Text.ofString "." ∧ t ≠ Text.ofString "..") := by
  have unmixed : slashStandIn ∉ (headMarks s).map Mark.unit := by
    rw [headMarks, List.map_append, units_escapedMark, List.mem_append, not_or]
    exact ⟨plain, by decide⟩
  have starred : headMarks s = s.map escapedMark ++ [⟨'*', false⟩] := rfl
  rw [toGlob_eq, marks_head] at short
  obtain ⟨matcher, compiled, means⟩ :=
    compileGlob_means starred (legible_of_plain (headMarks_plain s)) unmixed short false
  refine ⟨⟨escape s ++ "*", matcher⟩, ?_, fun t isText => ?_⟩
  · rw [Pattern.forHead, Pattern.compile, toGlob_eq, marks_head, compiled]
    rfl
  · rw [Pattern.test_eq, means t isText, signs_head, fits_head_iff, Bool.eq_false_iff,
      Ne.eq_def (isDots t), isDots_iff, not_or]

end Heads

/-- Escaping makes text literal. An escaped text has no wildcard and reads back as the text; as a
pattern, a text without wildcards matches the text that it reads as, letter case apart, unless case is
ignored and a bar is escaped beside letters; and the pattern of a head matches the texts that start
with it, save the empty text and the two dot texts. -/
theorem escaping_is_literal (s : Text) :
    (hasWildcards (escape s) = false ∧ unescape (escape s) = s) ∧
    (∀ caseSensitive : Bool, hasWildcards s = false → slashStandIn ∉ s →
      (toGlob s).length ≤ maxGlobLength →
      (caseSensitive = false → Text.upper (toGlob s) ≠ Text.lower (toGlob s) →
        Mark.mk '|' true ∉ marks s) →
      ∃ pattern, Pattern.compile s caseSensitive = .ok pattern ∧ ∀ t : Text, slashStandIn ∉ t →
        (pattern.test t = true ↔ (unitwise caseSensitive).SameText (unescape s) t)) ∧
    (slashStandIn ∉ s → (toGlob (escape s ++ "*")).length ≤ maxGlobLength →
      ∃ pattern, Pattern.forHead s = .ok pattern ∧ ∀ t : Text, slashStandIn ∉ t →
        (pattern.test t = true ↔ (unitwise false).SameText s (t.take s.length) ∧
          t ≠ [] ∧ t ≠ Text.ofString "." ∧ t ≠ Text.ofString "..")) := by
  refine ⟨⟨hasWildcards_escape s, unescape_escape s⟩, ?_, forHead_matches s⟩
  intro caseSensitive wildless plain short barless
  rw [toGlob_eq] at short barless
  obtain ⟨matcher, compiled, takes⟩ :=
    compileGlob_tame (tame_of_hasWildcards wildless) (unmixed_marks plain) short barless
  refine ⟨⟨s, matcher⟩, ?_, fun t isText => takes t isText⟩
  rw [Pattern.compile, toGlob_eq, compiled]
  rfl

theorem escaped_brackets_match :
    ∃ pattern, Pattern.compile "a`[1`]`" = .ok pattern ∧
      pattern.test "A[1]`" = true ∧ pattern.test "a1`" = false := by
  obtain ⟨pattern, compiled, matched⟩ :=
    (escaping_is_literal "a`[1`]`").2.1 false (by decide +kernel) (by decide +kernel)
      (by decide +kernel) fun _ _ => by decide +kernel
  refine ⟨pattern, compiled, (matched _ (by decide +kernel)).mpr (by decide +kernel), ?_⟩
  rw [Bool.eq_false_iff]
  exact fun accepted => absurd ((matched _ (by decide +kernel)).mp accepted) (by decide +kernel)

theorem escaped_bar_is_not_literal :
    ¬∀ p t : Text, hasWildcards p = false → slashStandIn ∉ p → slashStandIn ∉ t →
      (toGlob p).length ≤ maxGlobLength →
      ∃ pattern, Pattern.compile p = .ok pattern ∧
        (pattern.test t = true ↔ (unitwise false).SameText (unescape p) t) := by
  intro always
  obtain ⟨pattern, compiled, matched⟩ := always "x`|y" "xz" (by decide +kernel)
    (by decide +kernel) (by decide +kernel) (by decide +kernel)
  have known : ∃ pattern, Pattern.compile "x`|y" = .ok pattern ∧ pattern.test "xz" = true :=
    ⟨_, rfl, by decide +kernel⟩
  obtain ⟨pattern', compiled', accepted⟩ := known
  rw [compiled, Except.ok.injEq] at compiled'
  rw [← compiled'] at accepted
  exact absurd (matched.mp accepted) (by decide +kernel)

end TabCompletion.Wildcard
