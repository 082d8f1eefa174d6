import TabCompletion.Proofs.Text.Lowering
import TabCompletion.Proofs.Wildcard.Compiling
import TabCompletion.Proofs.Wildcard.Literal
import TabCompletion.Proofs.Wildcard.Pieces

/-!
Patterns that end in a star, of any kind: with classes, with alternatives and with an escaped star.
Writing one star more behind such a pattern loses no text. What is said of the texts that such a
pattern matches follows from how its last alternative ends.
-/

namespace TabCompletion.Wildcard

/-! Alternatives. -/

section Alternatives

/-- The alternatives before the last, opened. -/
def openFront : List (List Piece) → List (List Piece)
  | [] => []
  | first :: rest => (first ++ [.anyMany]) :: rest.map fun middle => .anyMany :: middle ++ [.anyMany]

/-- What stands in front of the last alternative. -/
def lead (front : List (List Piece)) : List Piece := if front.isEmpty then [] else [.anyMany]

theorem openLater_append (middles : List (List Piece)) (last : List Piece) :
    openEnds.openLater (middles ++ [last]) =
      middles.map (fun middle => .anyMany :: middle ++ [.anyMany]) ++ [.anyMany :: last] := by
  induction middles with
  | nil => rfl
  | cons middle rest ih =>
      rw [List.map_cons, List.cons_append, List.cons_append, ← ih]
      cases rest <;> rfl

theorem openEnds_append (front : List (List Piece)) (last : List Piece) :
    openEnds (front ++ [last]) = openFront front ++ [lead front ++ last] := by
  cases front with
  | nil => rfl
  | cons first rest =>
      have later := openLater_append rest last
      cases rest with
      | nil => rfl
      | cons second rest =>
          rw [List.cons_append, List.cons_append] at *
          rw [openEnds, later]
          · rfl
          · simp

theorem openFront_open {front : List (List Piece)} {alternative : List Piece}
    (listed : alternative ∈ openFront front) : ∃ body, alternative = body ++ [.anyMany] := by
  cases front with
  | nil => cases listed
  | cons first rest =>
      rcases List.mem_cons.mp listed with rfl | later
      · exact ⟨first, rfl⟩
      · obtain ⟨middle, -, rfl⟩ := List.mem_map.mp later
        exact ⟨.anyMany :: middle, rfl⟩

variable {alternatives : List (List Piece)} {c : Comparison} {guarded : Bool} {t : Text}

theorem exists_of_shape_test (matched : (Matcher.shape alternatives c guarded).test t = true) :
    ∃ alternative ∈ alternatives, matchesAll c alternative (c.view t) = true := by
  cases alternatives with
  | nil => cases matched
  | cons first rest =>
      simp only [Matcher.test, Bool.or_eq_true, Bool.and_eq_true, List.any_eq_true] at matched
      rcases matched with ⟨-, fits⟩ | ⟨other, later, fits⟩
      · exact ⟨first, List.mem_cons_self, fits⟩
      · exact ⟨other, List.mem_cons_of_mem _ later, fits⟩

theorem shape_test_of_exists (other : isDots t = false) {alternative : List Piece}
    (listed : alternative ∈ alternatives) (fits : matchesAll c alternative (c.view t) = true) :
    (Matcher.shape alternatives c guarded).test t = true := by
  cases alternatives with
  | nil => cases listed
  | cons first rest =>
      simp only [Matcher.test, other, Bool.and_false, Bool.not_false, Bool.true_and, Bool.or_eq_true,
        List.any_eq_true]
      rcases List.mem_cons.mp listed with rfl | later
      · exact Or.inl fits
      · exact Or.inr ⟨alternative, later, fits⟩

theorem shape_test_widen {front : List (List Piece)} {last wider : List Piece}
    (widens : ∀ points, matchesAll c last points = true → matchesAll c wider points = true)
    (matched : (Matcher.shape (front ++ [last]) c guarded).test t = true) :
    (Matcher.shape (front ++ [wider]) c guarded).test t = true := by
  cases front with
  | nil =>
      simp only [List.nil_append, Matcher.test, List.any_nil, Bool.or_false, Bool.and_eq_true]
        at matched ⊢
      exact ⟨matched.1, widens _ matched.2⟩
  | cons first rest =>
      simp only [List.cons_append, Matcher.test, List.any_append, List.any_cons, List.any_nil,
        Bool.or_false, Bool.or_eq_true] at matched ⊢
      exact matched.imp_right (Or.imp_right (widens _))

end Alternatives

/-! Compiled patterns. -/

section Compiled

/-- What compiling has seen at the end of a glob. -/
def compilation (g : Text) : Compilation := Compilation.run (g.length + 1) {} g

namespace Compilation

def alternatives (state : Compilation) : List (List Piece) :=
  state.finished.reverse ++ [state.pieces.reverse]

/-- A pattern that no later rule refuses. -/
def isValid (state : Compilation) : Bool :=
  !(state.invalid || (state.byPoints && state.unitEscape))

theorem valid_of_isValid {state : Compilation} (valid : state.isValid = true) :
    state.invalid = false := by
  rw [isValid, Bool.not_eq_true', Bool.or_eq_false_iff] at valid
  exact valid.1

def comparison (state : Compilation) (caseSensitive : Bool) : Comparison :=
  if caseSensitive then .exact state.byPoints else .ignoringCase state.byPoints

/-- The matcher that is made of all pieces. -/
def shaped (state : Compilation) (caseSensitive : Bool) : Matcher :=
  .shape (openEnds state.alternatives) (state.comparison caseSensitive)
    ((state.alternatives.head?.map startsOpen).getD false)

end Compilation

variable {g : Text} {cs : Bool}

theorem EndsInStar.getLast (ends : EndsInStar g) (nonempty : g ≠ []) :
    g.getLast? = some ('*' : CodeUnit) := by
  have isLast := List.getLast?_eq_some_getLast nonempty
  rw [isLast, ends _ isLast]

theorem compileGlob_eq (nonempty : g ≠ []) (short : g.length ≤ maxGlobLength) :
    compileGlob g cs =
      if !(compilation g).wild && !(!cs && Text.upper g != Text.lower g) then
        .ok (.exactly (literalText (compilation g).alternatives))
      else if (compilation g).isValid then
        .ok ((simpleMatcher? g (!cs)).getD ((compilation g).shaped cs))
      else .error .uncompilable := by
  by_cases stars : g = Text.ofString "**"
  · subst stars
    cases cs <;> rfl
  have isFilled : ¬g.isEmpty = true := by rwa [List.isEmpty_iff]
  -- The dot texts themselves start with no bracket expression.
  have guarded : (((compilation g).alternatives.head?.map startsOpen).getD false &&
      !(g == Text.ofString "." || g == Text.ofString "..")) =
        ((compilation g).alternatives.head?.map startsOpen).getD false := by
    by_cases dots : isDots g = true
    · rcases isDots_iff.mp dots with rfl | rfl <;> rfl
    · rw [← isDots, Bool.eq_false_iff.mpr dots, Bool.not_false, Bool.and_true]
  rw [compileGlob, if_neg (Nat.not_lt.mpr short), if_neg isFilled]
  simp only [beq_iff_eq, stars, if_false, List.reverse_cons]
  have isRun : Compilation.run (g.length + 1) {} g = compilation g := rfl
  simp only [isRun]
  refine if_congr Iff.rfl rfl ?_
  cases valid :
      (compilation g).invalid || ((compilation g).byPoints && (compilation g).unitEscape) with
  | true => simp [Compilation.isValid, valid]
  | false =>
      simp only [Compilation.isValid, valid, Bool.false_eq_true, if_false, Bool.not_false, if_true]
      cases simpleMatcher? g (!cs) with
      | some matcher => rfl
      | none => exact congrArg (fun g => Except.ok (Matcher.shape _ _ g)) guarded

theorem compilation_star (ends : EndsInStar g) (nonempty : g ≠ []) :
    compilation (g ++ [('*' : CodeUnit)]) = compilation g ∧ (compilation g).Cut ∨
      compilation (g ++ [('*' : CodeUnit)]) = (compilation g).starred ∧
        (compilation g).StarLast :=
  run_star (Nat.lt_succ_self _) (by simp) ends fun isEmpty => absurd isEmpty nonempty

theorem compilation_quiet (ends : EndsInStar g) : (compilation g).Quiet :=
  run_quiet ends fun _ => ⟨rfl, rfl, by simp⟩

/-- How the last alternative of a pattern with a star at the end may end. -/
def isStarEnd (piece : Piece) : Prop :=
  piece = .anyMany ∨ piece = .literal ('*' : CodeUnit).toNat ∨ piece = .never

theorem last_piece (ends : EndsInStar g) (nonempty : g ≠ [])
    (valid : (compilation g).invalid = false) :
    ∃ body piece, (compilation g).pieces.reverse = body ++ [piece] ∧ isStarEnd piece := by
  have ofHead : ∀ piece, isStarEnd piece → (compilation g).pieces.head? = some piece →
      ∃ body piece, (compilation g).pieces.reverse = body ++ [piece] ∧ isStarEnd piece := by
    intro piece isEnd isHead
    obtain ⟨rest, isCons⟩ := List.head?_eq_some_iff.mp isHead
    exact ⟨rest.reverse, piece, by rw [isCons, List.reverse_cons], isEnd⟩
  rcases compilation_star ends nonempty with ⟨-, -, invalid | never⟩ | ⟨-, ⟨-, many⟩ | literal⟩
  · rw [valid] at invalid
    cases invalid
  · exact ofHead _ (Or.inr (Or.inr rfl)) never
  · exact ofHead _ (Or.inl rfl) many
  · exact ofHead _ (Or.inr (Or.inl rfl)) literal

theorem startsOpen_append_many {piece : Piece} (isEnd : isStarEnd piece) (body : List Piece) :
    startsOpen (body ++ [piece] ++ [.anyMany]) = startsOpen (body ++ [piece]) := by
  match body with
  | [] => rcases isEnd with rfl | rfl | rfl <;> rfl
  | [first] => rcases isEnd with rfl | rfl | rfl <;> rfl
  | [first, second] => rfl
  | first :: second :: third :: rest => rfl

def isStars (t : Text) : Bool := !t.isEmpty && t.all fun (u : CodeUnit) => u == '*'

/-- Of the simple patterns only three can end in a star. -/
theorem simpleMatcher?_eq (ends : EndsInStar g) (nonempty : g ≠ []) (ignoreCase : Bool) :
    simpleMatcher? g ignoreCase =
      let afterStars := g.dropWhile fun (u : CodeUnit) => u == '*'
      if afterStars.isEmpty then some .anything
      else if !(g.takeWhile fun (u : CodeUnit) => u == '*').isEmpty &&
          Text.startsWith afterStars "." && isStars (afterStars.drop 1) then some .dotted
      else if Text.startsWith g "." && isStars (g.drop 1) then some .dotLed
      else none := by
  -- What is left after stars or question marks ends in a star and so is not plain text.
  have special : ∀ p : CodeUnit → Bool, (g.dropWhile p).isEmpty = false →
      (g.dropWhile p).any isGlobSpecial = true := by
    intro p isLeft
    have whole : (g.takeWhile p ++ g.dropWhile p).getLast? = some ('*' : CodeUnit) := by
      rw [List.takeWhile_append_dropWhile]
      exact ends.getLast nonempty
    exact special_of_ends whole (List.isEmpty_eq_false_iff.mp isLeft)
  have notMarks : (g.dropWhile fun (u : CodeUnit) => u == '?').isEmpty = false := by
    rw [List.isEmpty_eq_false_iff]
    intro none
    have isLast := List.mem_of_getLast? (ends.getLast nonempty)
    have question := List.dropWhile_eq_nil_iff.mp none _ isLast
    exact absurd question (by decide)
  simp only [simpleMatcher?, special _ notMarks, Bool.not_true, Bool.and_false, Bool.false_eq_true,
    if_false, isStars]
  cases allStars : (g.dropWhile fun (u : CodeUnit) => u == '*').isEmpty with
  | true =>
      have isRun : g.takeWhile (fun (u : CodeUnit) => u == '*') = g := by
        have split := List.takeWhile_append_dropWhile (p := fun (u : CodeUnit) => u == '*') (l := g)
        rwa [List.isEmpty_iff.mp allStars, List.append_nil] at split
      rw [isRun, List.isEmpty_eq_false_iff.mpr nonempty]
      rfl
  | false =>
      simp only [special _ allStars, Bool.and_false, Bool.not_true, Bool.false_eq_true, if_false]
      rfl

theorem isStars_star (t : Text) (nonempty : t ≠ []) :
    isStars (t ++ [('*' : CodeUnit)]) = isStars t := by
  have isStar : (('*' : CodeUnit) == '*') = true := rfl
  simp only [isStars, List.all_append, List.all_cons, List.all_nil, isStar, Bool.and_true,
    List.isEmpty_eq_false_iff.mpr nonempty]
  simp

/-- Behind a dot, one star more counts as stars where there were some. -/
theorem dot_stars_star (ends : EndsInStar g) :
    (Text.startsWith (g ++ [('*' : CodeUnit)]) "." && isStars ((g ++ [('*' : CodeUnit)]).drop 1)) =
      (Text.startsWith g "." && isStars (g.drop 1)) := by
  have same : Text.startsWith (g ++ [('*' : CodeUnit)]) "." = Text.startsWith g "." :=
    isPrefixOf_append_unit (by decide) g
  rw [same]
  cases starts : Text.startsWith g "." with
  | false => rfl
  | true =>
      obtain ⟨rest, rfl⟩ := startsWith_iff.mp starts
      have isLeft : rest ≠ [] := by
        rintro rfl
        exact absurd ends.last (by decide)
      rw [Bool.true_and, Bool.true_and, List.cons_append, List.drop_one, List.drop_one,
        List.tail_cons, List.tail_cons, isStars_star rest isLeft]

theorem endsInStar_concat (t : Text) : EndsInStar (t ++ [('*' : CodeUnit)]) := by
  intro u isLast
  rw [List.getLast?_concat, Option.some.injEq] at isLast
  exact isLast.symm

/-- One star more does not change which matcher of its own a glob has. -/
theorem simpleMatcher?_star (ends : EndsInStar g) (nonempty : g ≠ []) (ignoreCase : Bool) :
    simpleMatcher? (g ++ [('*' : CodeUnit)]) ignoreCase = simpleMatcher? g ignoreCase := by
  let isStar : CodeUnit → Bool := fun u => u == '*'
  rw [simpleMatcher?_eq ends nonempty, simpleMatcher?_eq (endsInStar_concat g) (by simp)]
  have dropped : (g ++ [('*' : CodeUnit)]).dropWhile isStar =
      if (g.dropWhile isStar).isEmpty then [] else g.dropWhile isStar ++ [('*' : CodeUnit)] :=
    List.dropWhile_append
  have taken : (g ++ [('*' : CodeUnit)]).takeWhile isStar =
      if (g.takeWhile isStar).length = g.length then g ++ [('*' : CodeUnit)]
      else g.takeWhile isStar := List.takeWhile_append
  simp only [isStar] at dropped taken
  cases allStars : (g.dropWhile isStar).isEmpty with
  | true =>
      rw [if_pos allStars] at dropped
      simp only [dropped, List.isEmpty_nil, if_true]
      rw [if_pos allStars]
  | false =>
      have isLeft := List.isEmpty_eq_false_iff.mp allStars
      have notAll : (g.takeWhile isStar).length ≠ g.length := by
        intro all
        have split := congrArg List.length (List.takeWhile_append_dropWhile (p := isStar) (l := g))
        rw [List.length_append, all] at split
        have positive := List.length_pos_iff.mpr isLeft
        omega
      have inLeft := dot_stars_star (ends.suffix (List.dropWhile_suffix isStar))
      simp only [isStar] at inLeft
      rw [if_neg (by rw [allStars]; decide)] at dropped
      rw [if_neg notAll] at taken
      have filled : (g.dropWhile isStar ++ [('*' : CodeUnit)]).isEmpty = false :=
        List.isEmpty_eq_false_iff.mpr (by simp)
      simp only [isStar] at allStars filled
      simp only [dropped, taken, Bool.and_assoc, inLeft, dot_stars_star ends, allStars, filled]

theorem wild_of_simple (ends : EndsInStar g) (nonempty : g ≠ []) {ignoreCase : Bool}
    {matcher : Matcher} (found : simpleMatcher? g ignoreCase = some matcher) :
    (compilation g).wild = true := by
  have last := ends.getLast nonempty
  have bare := (found ▸ simpleMatcher?_simple last ignoreCase).bare
  have isGlob : glob (g.map fun u => ⟨u, false⟩) = g := by
    rw [glob, List.flatMap_map]
    refine (List.flatMap_congr fun u listed => ?_).trans (List.flatMap_singleton' g)
    rcases bare u listed with rfl | rfl <;> rfl
  have plain : ∀ m ∈ g.map fun u => (⟨u, false⟩ : Mark), m.Plain := by
    intro m listed
    obtain ⟨u, isUnit, rfl⟩ := List.mem_map.mp listed
    rcases bare u isUnit with rfl | rfl <;> exact ⟨by decide, by decide⟩
  have enough : (g.map fun u => (⟨u, false⟩ : Mark)).length ≤ g.length + 1 := by simp
  obtain ⟨unitEscape, ran⟩ := run_marks (legible_of_plain plain) enough {}
  rw [isGlob] at ran
  rw [compilation, ran, Bool.false_or, List.any_eq_true]
  refine ⟨.many, ?_, rfl⟩
  rw [List.map_map]
  exact List.mem_map.mpr ⟨_, List.mem_of_getLast? last, rfl⟩

namespace Compilation

variable {state : Compilation}

theorem starred_alternatives (state : Compilation) :
    state.starred.alternatives =
      state.finished.reverse ++ [state.pieces.reverse ++ [.anyMany]] := by
  simp [starred, alternatives]

/-- With a star behind the last piece the same texts are matched and more. -/
theorem shaped_starred {body : List Piece} {piece : Piece} (isEnd : isStarEnd piece)
    (isLast : state.pieces.reverse = body ++ [piece]) {t : Text}
    (matched : (state.shaped cs).test t = true) : (state.starred.shaped cs).test t = true := by
  have sameGuard : (state.starred.alternatives.head?.map startsOpen).getD false =
      (state.alternatives.head?.map startsOpen).getD false := by
    rw [starred_alternatives, alternatives, isLast]
    cases state.finished.reverse with
    | nil => exact startsOpen_append_many isEnd body
    | cons first rest => rfl
  rw [shaped, sameGuard, starred_alternatives, openEnds_append, ← List.append_assoc]
  rw [shaped, alternatives, openEnds_append] at matched
  refine shape_test_widen (fun points fits => ?_) matched
  exact matchesAll_append_many.mpr ⟨points, [], by simp, fits⟩

theorem units_of_literals {pieces : List Piece}
    (literal : ∀ piece ∈ pieces, ∃ u : CodeUnit, piece = .literal u.toNat) :
    ∃ units : Text, pieces = (units.map (·.toNat)).map .literal := by
  induction pieces with
  | nil => exact ⟨[], rfl⟩
  | cons piece rest ih =>
      obtain ⟨u, rfl⟩ := literal piece List.mem_cons_self
      obtain ⟨units, rfl⟩ := ih fun piece later => literal piece (List.mem_cons_of_mem _ later)
      exact ⟨u :: units, rfl⟩

theorem join_first (separator first : Text) (rest : List Text) :
    ∃ tail, Text.join separator (first :: rest) = first ++ tail := by
  cases rest with
  | nil => exact ⟨[], by simp [Text.join]⟩
  | cons second more => exact ⟨separator ++ Text.join separator (second :: more), by simp [Text.join]⟩

/-- The text of alternatives without wildcards starts with the first of them. -/
theorem literalText_first (units : Text) (rest : List (List Piece)) :
    ∃ tail, literalText ((units.map (·.toNat)).map .literal :: rest) = units ++ tail := by
  have spoken : literalText [(units.map (·.toNat)).map .literal] = units := by
    simp [literalText, Text.join, List.flatMap_map, Text.unitsOfPoint_toNat]
  simp only [literalText, Text.join, List.map_cons, List.map_nil, List.intersperse_singleton,
    List.flatten_singleton] at spoken
  rw [literalText, List.map_cons, spoken]
  exact join_first _ units _

theorem literal_of_alternative (quiet : state.Quiet) (tame : state.wild = false)
    {alternative : List Piece} (listed : alternative ∈ state.alternatives) :
    ∀ piece ∈ alternative, ∃ u : CodeUnit, piece = .literal u.toNat := by
  obtain ⟨-, -, literal⟩ := quiet tame
  rcases List.mem_append.mp listed with finished | last
  · exact literal alternative (List.mem_cons_of_mem _ (List.mem_reverse.mp finished))
  · rw [List.mem_singleton.mp last]
    exact fun piece isPiece => literal _ List.mem_cons_self piece (List.mem_reverse.mp isPiece)

theorem shaped_starred_literal (quiet : state.Quiet) (tame : state.wild = false)
    (notDots : isDots (literalText state.alternatives) = false) :
    (state.starred.shaped cs).test (literalText state.alternatives) = true := by
  -- The text starts with the first alternative, and with the star that one is open at its end.
  obtain ⟨first, rest, isCons, opened⟩ : ∃ first rest, state.alternatives = first :: rest ∧
      first ++ [.anyMany] ∈ openEnds state.starred.alternatives := by
    rw [starred_alternatives, openEnds_append, alternatives]
    cases state.finished.reverse with
    | nil => exact ⟨_, _, rfl, List.mem_singleton.mpr rfl⟩
    | cons first rest => exact ⟨first, _, rfl, List.mem_cons_self⟩
  have listed : first ∈ state.alternatives := isCons ▸ List.mem_cons_self
  obtain ⟨units, rfl⟩ := units_of_literals (literal_of_alternative quiet tame listed)
  obtain ⟨tail, isText⟩ := literalText_first units rest
  refine shape_test_of_exists notDots opened (matchesAll_append_many.mpr ?_)
  refine ⟨units.map (·.toNat), tail.map (·.toNat), ?_, matchesAll_literals _ _⟩
  have byUnits : state.starred.byPoints = false := (quiet tame).2.1
  rw [isCons, isText, comparison, byUnits]
  cases cs <;> simp [Comparison.view]

theorem literalText_ends (starLast : state.StarLast) (tame : state.wild = false) :
    (literalText state.alternatives).getLast? = some ('*' : CodeUnit) := by
  rcases starLast with ⟨wild, -⟩ | isHead
  · rw [tame] at wild
    cases wild
  · obtain ⟨rest, isCons⟩ := List.head?_eq_some_iff.mp isHead
    simp only [alternatives, isCons, List.reverse_cons, literalText, List.map_append, List.map_cons,
      List.map_nil, List.flatMap_append, List.flatMap_cons, List.flatMap_nil, List.append_nil,
      Text.unitsOfPoint_toNat]
    rw [join_extended, List.getLast?_concat]

end Compilation

/-- A pattern without wildcards is compiled with one star more, and has no matcher of its own. -/
theorem starred_of_tame (ends : EndsInStar g) (nonempty : g ≠ [])
    (tame : (compilation g).wild = false) (ignoreCase : Bool) :
    (compilation g).isValid = true ∧ simpleMatcher? g ignoreCase = none := by
  obtain ⟨valid, byUnits, -⟩ := compilation_quiet ends tame
  refine ⟨by simp [Compilation.isValid, valid, byUnits], ?_⟩
  cases found : simpleMatcher? g ignoreCase with
  | none => rfl
  | some simple =>
      rw [wild_of_simple ends nonempty found] at tame
      cases tame

theorem starred_widens (ends : EndsInStar g) (nonempty : g ≠ [])
    (valid : (compilation g).isValid = true) {t : Text}
    (matched : ((simpleMatcher? g (!cs)).getD ((compilation g).shaped cs)).test t = true) :
    ((simpleMatcher? g (!cs)).getD ((compilation g).starred.shaped cs)).test t = true := by
  obtain ⟨body, piece, isLast, isEnd⟩ :=
    last_piece ends nonempty (Compilation.valid_of_isValid valid)
  cases found : simpleMatcher? g (!cs) with
  | some simple =>
      rw [found] at matched
      exact matched
  | none =>
      rw [found] at matched
      exact Compilation.shaped_starred isEnd isLast matched

/-- Behind a star one star more loses no text. -/
theorem compileGlob_star (ends : EndsInStar g) (nonempty : g ≠ [])
    (short : g.length + 1 ≤ maxGlobLength) {matcher : Matcher}
    (compiled : compileGlob g cs = .ok matcher) :
    ∃ wider, compileGlob (g ++ [('*' : CodeUnit)]) cs = .ok wider ∧
      ∀ t, matcher.test t = true → wider.test t = true := by
  rw [compileGlob_eq nonempty (by omega)] at compiled
  rw [compileGlob_eq (by simp) (by simpa using short),
    simpleMatcher?_star ends nonempty]
  rcases compilation_star ends nonempty with ⟨same, cut⟩ | ⟨isStarred, starLast⟩
  · rw [same]
    simp only [cut.1, Bool.not_true, Bool.false_and, Bool.false_eq_true, if_false] at compiled ⊢
    exact ⟨matcher, compiled, fun _ matched => matched⟩
  · have wild : (compilation g).starred.wild = true := rfl
    have sameValid : (compilation g).starred.isValid = (compilation g).isValid := rfl
    simp only [isStarred, wild, sameValid, Bool.not_true, Bool.false_and, Bool.false_eq_true,
      if_false]
    split at compiled
    -- The text that a literal pattern stands for ends in the star that was escaped.
    next isLiteral =>
      have tame : (compilation g).wild = false := by
        simpa using (Bool.and_eq_true_iff.mp isLiteral).1
      obtain ⟨isValid, isShaped⟩ := starred_of_tame ends nonempty tame (!cs)
      cases compiled
      rw [if_pos isValid, isShaped]
      refine ⟨_, rfl, fun t matched => ?_⟩
      rw [eq_of_beq matched]
      exact Compilation.shaped_starred_literal (compilation_quiet ends) tame
        (not_dots_of_ends (Compilation.literalText_ends starLast tame))
    next =>
      split at compiled
      next valid =>
        rw [if_pos valid]
        cases compiled
        exact ⟨_, rfl, fun t matched => starred_widens ends nonempty valid matched⟩
      · cases compiled

theorem compileGlob_cases (ends : EndsInStar g) (nonempty : g ≠ []) {matcher : Matcher}
    (compiled : compileGlob g cs = .ok matcher) :
    Simple g (some matcher) ∨
      (∃ text, matcher = .exactly text ∧ text.getLast? = some ('*' : CodeUnit)) ∨
      (compilation g).invalid = false ∧ matcher = (compilation g).shaped cs := by
  have short : g.length ≤ maxGlobLength := by
    by_contra long
    rw [compileGlob, if_pos (Nat.not_le.mp long)] at compiled
    cases compiled
  rw [compileGlob_eq nonempty short] at compiled
  split at compiled
  next isLiteral =>
    have tame : (compilation g).wild = false := by simpa using (Bool.and_eq_true_iff.mp isLiteral).1
    cases compiled
    refine Or.inr (Or.inl ⟨_, rfl, ?_⟩)
    rcases compilation_star ends nonempty with ⟨-, cut⟩ | ⟨-, starLast⟩
    · rw [cut.1] at tame
      cases tame
    · exact Compilation.literalText_ends starLast tame
  next =>
    split at compiled
    next valid =>
      cases compiled
      have simple := simpleMatcher?_simple (ends.getLast nonempty) (!cs)
      cases found : simpleMatcher? g (!cs) with
      | some matcher => exact Or.inl (found ▸ simple)
      | none => exact Or.inr (Or.inr ⟨Compilation.valid_of_isValid valid, rfl⟩)
    · cases compiled

/-- The opened alternatives of a pattern with a star at the end: all but the last are open, and the
last ends as the pattern does. -/
theorem opened_cases (ends : EndsInStar g) (nonempty : g ≠ [])
    (valid : (compilation g).invalid = false) {alternative : List Piece}
    (listed : alternative ∈ openEnds (compilation g).alternatives) :
    ∃ body piece, alternative = body ++ [piece] ∧ isStarEnd piece := by
  rw [Compilation.alternatives, openEnds_append] at listed
  rcases List.mem_append.mp listed with inFront | isLast
  · obtain ⟨body, rfl⟩ := openFront_open inFront
    exact ⟨body, .anyMany, rfl, Or.inl rfl⟩
  · obtain ⟨body, piece, split, isEnd⟩ := last_piece ends nonempty valid
    rw [List.mem_singleton.mp isLast, split]
    exact ⟨lead _ ++ body, piece, by rw [List.append_assoc], isEnd⟩

variable {matcher : Matcher} {t : Text}

/-- A pattern with a star at the end that matches the empty text matches all but the dot texts. -/
theorem test_of_test_nil (ends : EndsInStar g) (nonempty : g ≠ [])
    (compiled : compileGlob g cs = .ok matcher) (matched : matcher.test [] = true)
    (other : isDots t = false) : matcher.test t = true := by
  rcases compileGlob_cases ends nonempty compiled with simple | ⟨text, rfl, last⟩ | ⟨valid, rfl⟩
  · cases simple <;> cases matched
  · rw [← eq_of_beq matched] at last
    cases last
  · obtain ⟨alternative, listed, fits⟩ := exists_of_shape_test matched
    have noPoints : ∀ c : Comparison, c.view [] = [] := by
      intro c
      cases c with
      | exact byPoints | ignoringCase byPoints => cases byPoints <;> rfl
    rw [noPoints, matchesAll_empty] at fits
    obtain ⟨body, piece, rfl, -⟩ := opened_cases ends nonempty valid listed
    exact shape_test_of_exists other listed (matchesAll_stars (by simp) fits)

/-- No way of comparing takes the end of the text for a star. -/
def StarlessEnd (t : Text) : Prop :=
  ∀ (c : Comparison) (front : List Nat) (last : Nat), c.view t = front ++ [last] →
    c.same ('*' : CodeUnit).toNat last = false

theorem view_concat {u : CodeUnit} (notLow : Text.isLowHalf u = false) (c : Comparison) (t : Text) :
    c.view (t ++ [u]) = c.view t ++ [u.toNat] := by
  cases c with
  | exact byPoints | ignoringCase byPoints =>
      cases byPoints with
      | true => exact Text.points_concat notLow t
      | false => exact List.map_append

theorem isDots_concat {u : CodeUnit} (notDot : u ≠ '.') (t : Text) : isDots (t ++ [u]) = false := by
  rw [Bool.eq_false_iff]
  intro dots
  have isDot : (t ++ [u]).getLast? = some ('.' : CodeUnit) := by
    rcases isDots_iff.mp dots with one | two
    · rw [one]
      rfl
    · rw [two]
      rfl
  rw [List.getLast?_concat, Option.some.injEq] at isDot
  exact notDot isDot

/-- A pattern with a star at the end that matches a text matches it with one unit more, unless it is
the star itself that the text ends with. -/
theorem test_concat (ends : EndsInStar g) (nonempty : g ≠ [])
    (compiled : compileGlob g cs = .ok matcher) (matched : matcher.test t = true)
    (starless : StarlessEnd t) {u : CodeUnit} (notLow : Text.isLowHalf u = false) (notDot : u ≠ '.') :
    matcher.test (t ++ [u]) = true := by
  have notDots := isDots_concat notDot t
  rcases compileGlob_cases ends nonempty compiled with simple | ⟨text, rfl, last⟩ | ⟨valid, rfl⟩
  · cases simple with
    | stars n => simp [Matcher.test, notDots]
    | dotted k n =>
        simp only [Matcher.test, notDots, Bool.not_false, Bool.true_and, Bool.and_eq_true]
          at matched ⊢
        exact contains_iff.mpr (List.mem_append_left _ (contains_iff.mp matched.2))
    | dotLed n =>
        simp only [Matcher.test, notDots, Bool.not_false, Bool.true_and, Bool.and_eq_true]
          at matched ⊢
        obtain ⟨rest, rfl⟩ := startsWith_iff.mp matched.2
        exact startsWith_iff.mpr ⟨rest ++ [u], rfl⟩
  · rw [← eq_of_beq matched] at last
    obtain ⟨front, rfl⟩ := List.getLast?_eq_some_iff.mp last
    have differs := starless (.exact false) _ _ (view_concat rfl (.exact false) front)
    cases differs
  · obtain ⟨alternative, listed, fits⟩ := exists_of_shape_test matched
    obtain ⟨body, piece, rfl, isEnd⟩ := opened_cases ends nonempty valid listed
    refine shape_test_of_exists notDots listed ?_
    rcases isEnd with rfl | rfl | rfl
    · obtain ⟨front, back, split, fitsFront⟩ := matchesAll_append_many.mp fits
      refine matchesAll_append_many.mpr ⟨front, back ++ [u.toNat], ?_, fitsFront⟩
      rw [view_concat notLow, split, List.append_assoc]
    · obtain ⟨front, last, split, same⟩ := matchesAll_append_literal fits
      rw [starless _ front last split] at same
      cases same
    · rw [matchesAll_append_never] at fits
      cases fits

end Compiled

/-! Words and the texts that they start. -/

section Words

/-- Whether a word starts a text: the word with a star behind it matches. -/
def begins (word t : Text) : Bool :=
  match Pattern.compile (word ++ "*") with
  | .ok pattern => pattern.test t
  | .error _ => false

theorem begins_iff {word t : Text} :
    begins word t = true ↔
      ∃ pattern, Pattern.compile (word ++ "*") = .ok pattern ∧ pattern.test t = true := by
  rw [begins]
  cases Pattern.compile (word ++ "*") <;> simp

theorem toGlob_last {p : Text} (ends : p.getLast? = some ('*' : CodeUnit)) :
    ∃ front, toGlob p = front ++ [('*' : CodeUnit)] := by
  obtain ⟨front, escaped, split⟩ := marks_last ends
  rw [toGlob_eq, split, glob, List.flatMap_append, List.flatMap_singleton]
  cases escaped with
  | false => exact ⟨front.flatMap Mark.glob, rfl⟩
  | true => exact ⟨front.flatMap Mark.glob ++ [('\\' : CodeUnit)], by rw [List.append_assoc]; rfl⟩

theorem toGlob_star {p : Text} (ends : p.getLast? = some ('*' : CodeUnit)) :
    toGlob (p ++ [('*' : CodeUnit)]) = toGlob p ++ [('*' : CodeUnit)] := by
  fun_induction toGlob p with
  | case1 => cases ends
  | case2 u =>
      cases ends
      rfl
  | case3 u v rest escape ih =>
      cases rest with
      | nil =>
          rw [List.cons_append, List.cons_append, toGlob, toGlob, if_pos escape, List.append_assoc]
          rfl
      | cons w more =>
          rw [List.cons_append, List.cons_append, toGlob, if_pos escape, ih (by simpa using ends),
            List.append_assoc]
  | case4 u v rest plain ih =>
      rw [List.cons_append, List.cons_append, toGlob, if_neg plain, ← List.cons_append,
        ih (by simpa using ends), List.append_assoc]

theorem compile_iff {p : Text} {pattern : Pattern} (compiled : Pattern.compile p = .ok pattern) :
    compileGlob (toGlob p) false = .ok pattern.matcher ∧
      ∀ t, pattern.test t = pattern.matcher.test (t.map slash) := by
  rw [Pattern.compile] at compiled
  cases made : compileGlob (toGlob p) false with
  | error error =>
      rw [made] at compiled
      cases compiled
  | ok matcher =>
      rw [made] at compiled
      cases compiled
      exact ⟨rfl, fun t => rfl⟩

theorem toGlob_endsInStar {p : Text} (ends : p.getLast? = some ('*' : CodeUnit)) :
    EndsInStar (toGlob p) ∧ toGlob p ≠ [] := by
  obtain ⟨front, split⟩ := toGlob_last ends
  rw [split]
  exact ⟨endsInStar_concat front, by simp⟩

theorem word_star_ends (word : Text) : (word ++ Text.ofString "*").getLast? = some ('*' : CodeUnit) :=
  List.getLast?_concat

/-- A word that already ends in a star starts what it matches, unless it is too long for one star
more. -/
theorem begins_of_test {word t : Text} {pattern : Pattern}
    (ends : word.getLast? = some ('*' : CodeUnit))
    (short : (toGlob (word ++ "*")).length ≤ maxGlobLength)
    (compiled : Pattern.compile word = .ok pattern) (matched : pattern.test t = true) :
    begins word t = true := by
  obtain ⟨isEnd, nonempty⟩ := toGlob_endsInStar ends
  obtain ⟨made, tests⟩ := compile_iff compiled
  have longer : toGlob (word ++ Text.ofString "*") = toGlob word ++ [('*' : CodeUnit)] :=
    toGlob_star ends
  rw [longer, List.length_append] at short
  obtain ⟨wider, madeWider, widens⟩ := compileGlob_star isEnd nonempty short made
  refine begins_iff.mpr ⟨⟨word ++ "*", wider⟩, ?_, ?_⟩
  · rw [Pattern.compile, longer, madeWider]
    rfl
  · rw [tests] at matched
    exact widens _ matched

/-- A word that starts the empty text starts every text but the two dot texts. -/
theorem begins_of_begins_nil {word t : Text} (starts : begins word [] = true)
    (other : isDots t = false) : begins word t = true := by
  obtain ⟨pattern, compiled, matched⟩ := begins_iff.mp starts
  obtain ⟨isEnd, nonempty⟩ := toGlob_endsInStar (word_star_ends word)
  obtain ⟨made, tests⟩ := compile_iff compiled
  refine begins_iff.mpr ⟨pattern, compiled, ?_⟩
  rw [tests] at matched ⊢
  exact test_of_test_nil isEnd nonempty made matched (by rw [isDots_slashed, other])

theorem begins_colon {word t : Text} (starts : begins word t = true)
    (starless : StarlessEnd (t.map slash)) : begins word (t ++ [(':' : CodeUnit)]) = true := by
  obtain ⟨pattern, compiled, matched⟩ := begins_iff.mp starts
  obtain ⟨isEnd, nonempty⟩ := toGlob_endsInStar (word_star_ends word)
  obtain ⟨made, tests⟩ := compile_iff compiled
  refine begins_iff.mpr ⟨pattern, compiled, ?_⟩
  rw [tests] at matched ⊢
  rw [List.map_append]
  exact test_concat isEnd nonempty made matched starless (by decide) (by decide)

end Words

end TabCompletion.Wildcard
