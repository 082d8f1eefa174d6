import TabCompletion.Proofs.Text.Uncased
import TabCompletion.Proofs.Wildcard.Effects

/-!
A backtick before an ordinary character. In glob notation it is a backslash, which is read together
with the character as one literal, so both patterns are read alike. What looks at the glob itself
and not at what it is read as has to be seen not to tell the two apart: whether the pattern has
letter case, and whether it has a matcher of its own. Some places do tell them apart, and they are
listed.
-/

namespace TabCompletion.Wildcard

/-! Places of a pattern. -/

section Places

/-- Whether a backtick at the end of the text escapes what follows. -/
def endsInEscape : Text → Bool
  | [] => false
  | [u] => u == '\x60'
  | u :: v :: rest => if u == '\x60' then endsInEscape rest else endsInEscape (v :: rest)

variable {front back : Text} {c : CodeUnit}

theorem marks_append (free : endsInEscape front = false) (rest : Text) :
    marks (front ++ rest) = marks front ++ marks rest := by
  fun_induction endsInEscape front with
  | case1 => rfl
  | case2 u => exact marks_plain (ne_of_beq_false free) rest
  | case3 u v more escape ih =>
      rw [List.cons_append, List.cons_append, marks, if_pos escape, ih free, marks, if_pos escape]
      rfl
  | case4 u v more plain ih =>
      rw [List.cons_append, List.cons_append, marks, if_neg plain, ← List.cons_append, ih free,
        marks, if_neg plain]
      rfl

theorem toGlob_append (free : endsInEscape front = false) (rest : Text) :
    toGlob (front ++ rest) = toGlob front ++ toGlob rest := by
  rw [toGlob_eq, toGlob_eq, toGlob_eq, marks_append free, glob, List.flatMap_append]
  rfl

theorem toGlob_plain (other : c ≠ '\x60') (rest : Text) :
    toGlob (c :: rest) = toGlob.plain c ++ toGlob rest := by
  cases rest with
  | nil => simp [toGlob]
  | cons v more => rw [toGlob, if_neg (by rwa [beq_iff_eq])]

theorem toGlob_backtick (c : CodeUnit) (rest : Text) :
    toGlob ('\x60' :: c :: rest) = toGlob.escaped c ++ toGlob rest := rfl

end Places

/-! Matchers of their own. -/

section Simple

variable {G H : Text} {c : CodeUnit}

/-- Stars or question marks and then plain text, which is taken as it stands in glob notation. -/
def takesAsWritten (g : Text) : Bool :=
  [('*' : CodeUnit), ('?' : CodeUnit)].any fun wild =>
    !(g.takeWhile (· == wild)).isEmpty && !(g.dropWhile (· == wild)).any isGlobSpecial

theorem takeWhile_at {w x : CodeUnit} (other : x ≠ w) (G Y : Text) :
    (G ++ x :: Y).takeWhile (· == w) = G.takeWhile (· == w) := by
  induction G with
  | nil => simp [other]
  | cons u rest ih => simp [List.takeWhile_cons, ih]

theorem dropWhile_at {w x : CodeUnit} (other : x ≠ w) (G Y : Text) :
    (G ++ x :: Y).dropWhile (· == w) = G.dropWhile (· == w) ++ x :: Y := by
  induction G with
  | nil => simp [other]
  | cons u rest ih =>
      rw [List.cons_append, List.dropWhile_cons, List.dropWhile_cons, ih]
      split <;> rfl

theorem takesAsWritten_at {x : CodeUnit} (ordinary : x ∉ (['*', '?'] : Text)) (G Y : Text) :
    takesAsWritten (G ++ x :: Y) = [('*' : CodeUnit), ('?' : CodeUnit)].any fun wild =>
      !(G.takeWhile (· == wild)).isEmpty &&
        !(G.dropWhile (· == wild) ++ x :: Y).any isGlobSpecial := by
  simp only [List.mem_cons, List.not_mem_nil, or_false, not_or] at ordinary
  simp only [takesAsWritten, List.any_cons, List.any_nil,
    takeWhile_at ordinary.1, takeWhile_at ordinary.2,
    dropWhile_at ordinary.1, dropWhile_at ordinary.2]

theorem takesAsWritten_escaped (ordinary : c ∉ (['*', '?'] : Text)) :
    takesAsWritten (G ++ ('\\' : CodeUnit) :: c :: H) = takesAsWritten (G ++ c :: H) := by
  have backslash : isGlobSpecial '\\' = false := by decide
  rw [takesAsWritten_at ordinary, takesAsWritten_at (by decide)]
  simp only [List.any_append, List.any_cons, backslash, Bool.false_or]

/-- A dot and then stars. -/
def isDotLed (t : Text) : Bool := Text.startsWith t "." && isStars (t.drop 1)

theorem isDotLed_at {x : CodeUnit} (other : x ≠ '*') {A Y : Text}
    (led : isDotLed (A ++ x :: Y) = true) :
    A = [] ∧ x = '.' ∧ ∃ n, Y = starRun n := by
  rw [isDotLed, isStars, Bool.and_eq_true, Bool.and_eq_true, Bool.not_eq_true',
    List.isEmpty_eq_false_iff, List.all_eq_true] at led
  obtain ⟨starts, filled, stars⟩ := led
  cases A with
  | nil =>
      obtain ⟨rest, isCons⟩ := startsWith_iff.mp starts
      obtain ⟨rfl, rfl⟩ := List.cons.inj isCons
      exact ⟨rfl, rfl, eq_starRun filled fun u listed => beq_iff_eq.mp (stars u listed)⟩
  | cons a others => exact absurd (beq_iff_eq.mp (stars x (by simp))) other

/-- What is not taken as it is written is simple only if it is a dot beside stars. -/
theorem simpleMatcher?_at {x : CodeUnit} (ordinary : x ∉ (['*', '?'] : Text)) {G Y : Text}
    (shaped : takesAsWritten (G ++ x :: Y) = false) (ignoreCase : Bool) :
    simpleMatcher? (G ++ x :: Y) ignoreCase =
      if !(G.takeWhile (· == ('*' : CodeUnit))).isEmpty &&
          isDotLed (G.dropWhile (· == ('*' : CodeUnit)) ++ x :: Y) then
        some .dotted
      else if isDotLed (G ++ x :: Y) then some .dotLed
      else none := by
  rw [takesAsWritten_at ordinary] at shaped
  simp only [List.mem_cons, List.not_mem_nil, or_false, not_or] at ordinary
  simp only [List.any_cons, List.any_nil, Bool.or_false, Bool.or_eq_false_iff] at shaped
  have filled : (G.dropWhile (· == ('*' : CodeUnit)) ++ x :: Y).isEmpty = false := by simp
  simp only [simpleMatcher?, takeWhile_at ordinary.1,
    takeWhile_at ordinary.2, dropWhile_at ordinary.1,
    dropWhile_at ordinary.2, filled, shaped.1, shaped.2, Bool.and_false,
    Bool.false_eq_true, if_false, isDotLed, isStars, Bool.and_assoc]
  rfl

/-- Behind a backslash nothing is a dot beside stars. -/
theorem simpleMatcher?_escaped (ordinary : c ∉ (['*', '?'] : Text)) (ignoreCase : Bool)
    (shaped : takesAsWritten (G ++ c :: H) = false) :
    simpleMatcher? (G ++ ('\\' : CodeUnit) :: c :: H) ignoreCase = none := by
  have notLed : ∀ A : Text, isDotLed (A ++ ('\\' : CodeUnit) :: c :: H) = false := by
    intro A
    rw [Bool.eq_false_iff]
    intro led
    exact absurd (isDotLed_at (by decide) led).2.1 (by decide)
  rw [← takesAsWritten_escaped ordinary] at shaped
  rw [simpleMatcher?_at (by decide) shaped, notLed, notLed, Bool.and_false]
  rfl

theorem simpleMatcher?_plain (ordinary : c ∉ (['*', '?'] : Text)) (ignoreCase : Bool)
    (shaped : takesAsWritten (G ++ c :: H) = false) :
    simpleMatcher? (G ++ c :: H) ignoreCase = none ∨
      c = '.' ∧ ∃ k n, G = List.replicate k ('*' : CodeUnit) ∧ H = starRun n := by
  have other : c ≠ '*' := fun same => ordinary (same ▸ List.mem_cons_self)
  rw [simpleMatcher?_at ordinary shaped]
  split
  next dotted =>
    rw [Bool.and_eq_true] at dotted
    obtain ⟨none, isDot, n, isRun⟩ := isDotLed_at other dotted.2
    have stars := List.dropWhile_eq_nil_iff.mp none
    have isRun' := List.eq_replicate_length.mpr fun u listed => beq_iff_eq.mp (stars u listed)
    exact Or.inr ⟨isDot, _, n, isRun', isRun⟩
  split
  next led =>
    obtain ⟨rfl, isDot, n, rfl⟩ := isDotLed_at other led
    exact Or.inr ⟨isDot, 0, n, rfl, rfl⟩
  · exact Or.inl rfl

end Simple

/-! Compiling. -/

section Compiling

/-- What keeps a backslash before a unit of a glob from counting. -/
structure Unaffected (G : Text) (c : CodeUnit) (H : Text) (caseSensitive : Bool) : Prop where
  /-- The glob is not taken as it is written. -/
  shaped : takesAsWritten (G ++ c :: H) = false
  /-- An escaped bar is only literal where the whole pattern is compared as one text. -/
  bar : c = '|' → (compilation (G ++ c :: H)).wild = false ∧
    (caseSensitive = false → Text.upper (G ++ c :: H) = Text.lower (G ++ c :: H))
  /-- No class works on code points, where not every unit may be escaped. -/
  strict : (c == '!') = true ∨ isLooseEscape c = true → (compilation (G ++ c :: H)).byPoints = false
  /-- No code point with letter case is split where case decides that bars are alternatives. -/
  whole : caseSensitive = false → (compilation (G ++ c :: H)).wild = false →
    Text.SplitsPair G (c :: H) → (compilation (G ++ c :: H)).finished = []

variable {G H : Text} {c : CodeUnit} {cs : Bool} {es es' : List Effect}

theorem uncased_backslash (apart : ¬Text.SplitsPair G (c :: H)) :
    Text.upper (G ++ ('\\' : CodeUnit) :: c :: H) = Text.lower (G ++ ('\\' : CodeUnit) :: c :: H) ↔
      Text.upper (G ++ c :: H) = Text.lower (G ++ c :: H) :=
  Text.uncased_insert apart (by decide) ⟨by decide, by decide⟩

theorem said_unescaping (es : List Effect) :
    (es.map Effect.unescaping).flatMap Effect.said = es.flatMap Effect.said := by
  rw [List.flatMap_map]
  exact List.flatMap_congr fun effect _ => by cases effect <;> rfl

/-- Both globs are read alike but for what is said about escaping. -/
theorem compileGlob_alike (short : (G ++ c :: H).length ≤ maxGlobLength)
    (short' : (G ++ ('\\' : CodeUnit) :: c :: H).length ≤ maxGlobLength)
    (unaffected : Unaffected G c H cs) (reads : Reads (G ++ c :: H) es)
    (reads' : Reads (G ++ ('\\' : CodeUnit) :: c :: H) es')
    (same : es.map Effect.unescaping = es'.map Effect.unescaping)
    (valid : (compilation (G ++ c :: H)).isValid =
      (compilation (G ++ ('\\' : CodeUnit) :: c :: H)).isValid)
    (simple : simpleMatcher? (G ++ c :: H) (!cs) = none)
    (simple' : simpleMatcher? (G ++ ('\\' : CodeUnit) :: c :: H) (!cs) = none) (t : Text) :
    (compileGlob (G ++ c :: H) cs).map (·.test t) =
      (compileGlob (G ++ ('\\' : CodeUnit) :: c :: H) cs).map (·.test t) := by
  have filled : ∀ {x : CodeUnit} {Y : Text}, G ++ x :: Y ≠ [] := by simp
  have alike := unescaping_congr reads reads' same
  by_cases cased : (compilation (G ++ c :: H)).wild = false →
      (!cs && Text.upper (G ++ c :: H) != Text.lower (G ++ c :: H)) =
        (!cs && Text.upper (G ++ ('\\' : CodeUnit) :: c :: H) !=
          Text.lower (G ++ ('\\' : CodeUnit) :: c :: H))
  · rw [compileGlob_congr filled filled short short' alike valid cased simple simple']
  · -- Only where the backslash splits a code point can it change whether there is letter case.
    rw [Classical.not_imp] at cased
    obtain ⟨tame, differs⟩ := cased
    have folded : cs = false := by
      cases cs with
      | true => exact absurd rfl differs
      | false => rfl
    subst folded
    have splits : Text.SplitsPair G (c :: H) := by
      by_contra apart
      apply differs
      rw [Bool.eq_iff_iff]
      simp only [Bool.not_false, Bool.true_and, bne_iff_ne, ne_eq, uncased_backslash apart]
    have single := unaffected.whole rfl tame splits
    have single' : (compilation (G ++ ('\\' : CodeUnit) :: c :: H)).finished = [] := by
      have kept := congrArg Compilation.finished alike
      exact kept.symm.trans single
    have tame' : (compilation (G ++ ('\\' : CodeUnit) :: c :: H)).wild = false := by
      have kept := congrArg Compilation.wild alike
      exact kept.symm.trans tame
    obtain ⟨matcher, compiled, means⟩ := compileGlob_alone filled short reads
      (tame_of_compilation reads tame) single simple
    obtain ⟨matcher', compiled', means'⟩ := compileGlob_alone filled short' reads'
      (tame_of_compilation reads' tame') single' simple'
    have said : es.flatMap Effect.said = es'.flatMap Effect.said := by
      rw [← said_unescaping es, same, said_unescaping]
    rw [compiled, compiled']
    refine congrArg Except.ok (Bool.eq_iff_iff.mpr ?_)
    rw [means, means', said]

/-- An escaped bar in a glob that is compared as one text. -/
theorem compileGlob_bar {front hs : List Effect} {unitEscape : Bool}
    (short : (G ++ ('|' : CodeUnit) :: H).length ≤ maxGlobLength)
    (short' : (G ++ ('\\' : CodeUnit) :: '|' :: H).length ≤ maxGlobLength)
    (unaffected : Unaffected G '|' H cs)
    (reads : Reads (G ++ ('|' : CodeUnit) :: H) (front ++ .literal '|' unitEscape :: hs))
    (reads' : Reads (G ++ ('\\' : CodeUnit) :: '|' :: H) (front ++ .bar :: hs)) :
    compileGlob (G ++ ('|' : CodeUnit) :: H) cs =
      compileGlob (G ++ ('\\' : CodeUnit) :: '|' :: H) cs := by
  obtain ⟨tame, uncased⟩ := unaffected.bar rfl
  have apart : ¬Text.SplitsPair G (('|' : CodeUnit) :: H) := by
    rintro ⟨-, low, -, isHead, -, half⟩
    cases isHead
    exact absurd half (by decide)
  have isTame := tame_of_compilation reads tame
  have isTame' : (front ++ .bar :: hs).any Effect.isWild = false := by
    rw [← isTame, List.any_append, List.any_append, List.any_cons, List.any_cons]
    rfl
  have uncased' := fun folded => (uncased_backslash apart).mpr (uncased folded)
  rw [compileGlob_spoken (by simp) short reads isTame uncased,
    compileGlob_spoken (by simp) short' reads' isTame' uncased', List.flatMap_append,
    List.flatMap_append]
  rfl

/-- A backslash before a unit of a glob that stands outside its bracket expressions does not
count. -/
theorem compileGlob_backslash (ordinary : c ∉ (['\\', '[', '*', '?'] : Text))
    (outside : Outside (c :: H) G) (outside' : Outside (('\\' : CodeUnit) :: c :: H) G)
    (short : (G ++ c :: H).length ≤ maxGlobLength)
    (short' : (G ++ ('\\' : CodeUnit) :: c :: H).length ≤ maxGlobLength)
    (unaffected : Unaffected G c H cs)
    (simple : simpleMatcher? (G ++ c :: H) (!cs) = none)
    (simple' : simpleMatcher? (G ++ ('\\' : CodeUnit) :: c :: H) (!cs) = none) (t : Text) :
    (compileGlob (G ++ c :: H) cs).map (·.test t) =
      (compileGlob (G ++ ('\\' : CodeUnit) :: c :: H) cs).map (·.test t) := by
  obtain ⟨hs, later⟩ := exists_reads H
  -- Either what is before the place cuts it off, or only the effect at the place may differ.
  rcases reachedAlike outside outside' with ⟨es, reads, reads'⟩ | ⟨front, reached⟩
  · have valid := congrArg Compilation.isValid
      ((compilation_reads reads).trans (compilation_reads reads').symm)
    exact compileGlob_alike short short' unaffected reads reads' rfl valid simple simple' t
  have reads := (reached _).1 (.ordinary ordinary later)
  by_cases bar : c = '|'
  · subst bar
    rw [compileGlob_bar short short' unaffected reads ((reached _).2 (.bar later))]
  have reads' := (reached _).2 (.escaped bar later)
  have same : (front ++ .literal c (isLooseEscape c) :: hs).map Effect.unescaping =
      (front ++ .literal c (c == '!') :: hs).map Effect.unescaping := by
    simp [Effect.unescaping]
  have valid : (compilation (G ++ c :: H)).isValid =
      (compilation (G ++ ('\\' : CodeUnit) :: c :: H)).isValid := by
    by_cases loose : (c == '!') = true ∨ isLooseEscape c = true
    · have alike := unescaping_congr reads reads' same
      have byUnits := unaffected.strict loose
      have byUnits' := congrArg Compilation.byPoints alike
      have invalid := congrArg Compilation.invalid alike
      dsimp only [Compilation.unescaping] at byUnits' invalid
      rw [Compilation.isValid, Compilation.isValid, ← byUnits', byUnits, invalid]
      rfl
    · rw [not_or, Bool.not_eq_true, Bool.not_eq_true] at loose
      rw [loose.2] at reads
      rw [loose.1] at reads'
      rw [compilation_reads reads, compilation_reads reads']
  exact compileGlob_alike short short' unaffected reads reads' same valid simple simple' t

end Compiling

/-! Patterns. -/

section Patterns

variable {front back : Text} {c : CodeUnit} {cs : Bool}

theorem compile_test (p : Text) (cs : Bool) (t : Text) :
    (Pattern.compile p cs).map (·.test t) =
      (compileGlob (toGlob p) cs).map (·.test (t.map slash)) := by
  rw [Pattern.compile]
  cases compileGlob (toGlob p) cs <;> rfl

theorem exists_unmixed (t : Text) : ∃ s : Text, slashStandIn ∉ s ∧ s.map slash = t.map slash := by
  let unmix : CodeUnit → CodeUnit := fun u => if u = slashStandIn then '/' else u
  refine ⟨t.map unmix, ?_, ?_⟩
  · intro listed
    obtain ⟨u, -, same⟩ := List.mem_map.mp listed
    dsimp only [unmix] at same
    split at same
    · exact absurd same (by decide)
    · contradiction
  · rw [List.map_map]
    refine List.map_congr_left fun u _ => ?_
    dsimp only [Function.comp, unmix]
    split
    next same => rw [same]; rfl
    · rfl

/-- A dot beside stars, with or without a backtick. -/
def dotMarks (k n : Nat) (escaped : Bool) : List Mark :=
  List.replicate k ⟨'*', false⟩ ++ ⟨'.', escaped⟩ :: List.replicate (n + 1) ⟨'*', false⟩

theorem compileGlob_dotMarks (k n : Nat) (escaped : Bool)
    (short : (glob (dotMarks k n escaped)).length ≤ maxGlobLength) (cs : Bool) :
    ∃ matcher, compileGlob (glob (dotMarks k n escaped)) cs = .ok matcher ∧
      matcher.Means cs ((dotMarks k n false).map Mark.sign) := by
  have isMark : ∀ m ∈ dotMarks k n escaped, m = ⟨'*', false⟩ ∨ m = ⟨'.', escaped⟩ := by
    intro m listed
    rcases List.mem_append.mp listed with stars | later
    · exact Or.inl (List.eq_of_mem_replicate stars)
    · rcases List.mem_cons.mp later with dot | stars
      · exact Or.inr dot
      · exact Or.inl (List.eq_of_mem_replicate stars)
  have starred : dotMarks k n escaped =
      (List.replicate k ⟨'*', false⟩ ++ ⟨'.', escaped⟩ :: List.replicate n ⟨'*', false⟩) ++
        [⟨'*', false⟩] := by
    rw [dotMarks, List.replicate_succ', List.append_assoc, List.cons_append]
  have plain : ∀ m ∈ dotMarks k n escaped, m.Plain := by
    intro m listed
    rcases isMark m listed with rfl | rfl
    · exact ⟨by decide, by decide⟩
    · cases escaped <;> exact ⟨by decide, by decide⟩
  have unmixed : slashStandIn ∉ (dotMarks k n escaped).map Mark.unit := by
    intro listed
    obtain ⟨m, later, same⟩ := List.mem_map.mp listed
    rcases isMark m later with rfl | rfl
    · exact absurd same (by decide)
    · exact absurd (show ('.' : CodeUnit) = slashStandIn from same) (by decide)
  have signs : (dotMarks k n false).map Mark.sign = (dotMarks k n escaped).map Mark.sign := by
    simp only [dotMarks, List.map_append, List.map_cons]
    cases escaped <;> rfl
  rw [signs]
  exact compileGlob_means starred (legible_of_plain plain) unmixed short cs

/-- A character of a pattern that is not escaped and not special and stands outside bracket
expressions, with a backtick before it and without. -/
structure Place (front : Text) (c : CodeUnit) (back : Text) : Prop where
  unescaped : endsInEscape front = false
  ordinary : c ∉ (['\x60', '*', '?', '[', ']'] : Text)
  outside : Outside (toGlob (c :: back)) (toGlob front)
  outsideEscaped : Outside (toGlob ('\x60' :: c :: back)) (toGlob front)

theorem marks_of_stars {t : Text} {k : Nat} (stars : toGlob t = List.replicate k ('*' : CodeUnit)) :
    marks t = List.replicate k ⟨'*', false⟩ := by
  rw [toGlob_eq] at stars
  have bare : ∀ u ∈ glob (marks t), u ≠ '\\' ∧ u ≠ slashStandIn := by
    intro u listed
    rw [stars] at listed
    rw [List.eq_of_mem_replicate listed]
    decide
  rw [marks_of_bare bare, stars, List.map_replicate]

/-- A backtick before a dot beside stars, which make a matcher of its own. -/
theorem test_backtick_dot (free : endsInEscape front = false) {k n : Nat}
    (stars : toGlob front = List.replicate k ('*' : CodeUnit)) (stars' : toGlob back = starRun n)
    (short : (toGlob (front ++ ('.' : CodeUnit) :: back)).length ≤ maxGlobLength)
    (short' : (toGlob (front ++ ('\x60' : CodeUnit) :: '.' :: back)).length ≤ maxGlobLength)
    (t : Text) :
    (Pattern.compile (front ++ ('.' : CodeUnit) :: back) cs).map (·.test t) =
      (Pattern.compile (front ++ ('\x60' : CodeUnit) :: '.' :: back) cs).map (·.test t) := by
  have read : marks (front ++ ('.' : CodeUnit) :: back) = dotMarks k n false := by
    rw [marks_append free, marks_plain (by decide), marks_of_stars stars, marks_of_stars stars']
    rfl
  have read' : marks (front ++ ('\x60' : CodeUnit) :: '.' :: back) = dotMarks k n true := by
    rw [marks_append free, marks_of_stars stars]
    have later : marks (('\x60' : CodeUnit) :: '.' :: back) = ⟨'.', true⟩ :: marks back := rfl
    rw [later, marks_of_stars stars']
    rfl
  rw [toGlob_eq, read] at short
  rw [toGlob_eq, read'] at short'
  -- Both compile to what the same signs mean, once no stand-in for a slash is in the text.
  obtain ⟨matcher, compiled, means⟩ := compileGlob_dotMarks k n false short cs
  obtain ⟨matcher', compiled', means'⟩ := compileGlob_dotMarks k n true short' cs
  obtain ⟨s, unmixed, same⟩ := exists_unmixed t
  rw [compile_test, compile_test, toGlob_eq, toGlob_eq, read, read', compiled, compiled', ← same]
  exact congrArg Except.ok (Bool.eq_iff_iff.mpr ((means s unmixed).trans (means' s unmixed).symm))

theorem toGlob_plain_of {c : CodeUnit} (notSlash : c ≠ '/') (notBackslash : c ≠ '\\') :
    toGlob.plain c = [c] ∧ toGlob.escaped c = [('\\' : CodeUnit), c] := by
  rw [toGlob.plain, toGlob.escaped, if_neg (by rwa [beq_iff_eq]), if_neg (by rwa [beq_iff_eq]),
    if_neg (by rwa [beq_iff_eq]), if_neg (by rwa [beq_iff_eq])]
  exact ⟨rfl, rfl⟩

/-- A backtick before an ordinary character changes neither whether a pattern is accepted nor what
it matches, but for the places where glob notation tells the escaped character apart. -/
theorem backtick_changes_nothing (front : Text) (c : CodeUnit) (back : Text) (caseSensitive : Bool)
    (place : Place front c back)
    (short : (toGlob (front ++ c :: back)).length ≤ maxGlobLength)
    (short' : (toGlob (front ++ ('\x60' : CodeUnit) :: c :: back)).length ≤ maxGlobLength)
    (unaffected : c = '/' ∨ c = '\\' ∨ Unaffected (toGlob front) c (toGlob back) caseSensitive)
    (t : Text) :
    (Pattern.compile (front ++ c :: back) caseSensitive).map (·.test t) =
      (Pattern.compile (front ++ ('\x60' : CodeUnit) :: c :: back) caseSensitive).map
        (·.test t) := by
  have ordinary := place.ordinary
  simp only [List.mem_cons, List.not_mem_nil, or_false, not_or] at ordinary
  obtain ⟨notBacktick, notStar, notQuestion, notBracket, -⟩ := ordinary
  have split := toGlob_append place.unescaped (c :: back)
  have split' := toGlob_append place.unescaped (('\x60' : CodeUnit) :: c :: back)
  rw [toGlob_plain notBacktick] at split
  rw [toGlob_backtick] at split'
  by_cases doubled : c = '/' ∨ c = '\\'
  · -- A slash and a backslash are written alike with and without a backtick.
    have same : toGlob.plain c = toGlob.escaped c := by
      rcases doubled with rfl | rfl <;> rfl
    rw [compile_test, compile_test, split, split', same]
  · rw [not_or] at doubled
    have unaffected := (unaffected.resolve_left doubled.1).resolve_left doubled.2
    obtain ⟨plain, escaped⟩ := toGlob_plain_of doubled.1 doubled.2
    have outside := place.outside
    have outside' := place.outsideEscaped
    rw [toGlob_plain notBacktick, plain] at outside
    rw [toGlob_backtick, escaped] at outside'
    rw [plain, List.singleton_append] at split
    rw [escaped, List.cons_append, List.singleton_append] at split'
    have notWild : c ∉ (['*', '?'] : Text) := by
      simp only [List.mem_cons, List.not_mem_nil, or_false, not_or]
      exact ⟨notStar, notQuestion⟩
    rcases simpleMatcher?_plain notWild (!caseSensitive) unaffected.shaped with
      simple | ⟨rfl, k, n, stars, stars'⟩
    · have simple' := simpleMatcher?_escaped notWild (!caseSensitive) unaffected.shaped
      have notSpecial : c ∉ (['\\', '[', '*', '?'] : Text) := by
        simp only [List.mem_cons, List.not_mem_nil, or_false, not_or]
        exact ⟨doubled.2, notBracket, notStar, notQuestion⟩
      rw [split] at short
      rw [split'] at short'
      rw [compile_test, compile_test, split, split']
      exact compileGlob_backslash notSpecial outside outside' short short' unaffected simple
        simple' _
    · -- The one unit that has a matcher of its own without a backtick and none with it.
      exact test_backtick_dot place.unescaped stars stars' short short' t

theorem backtick_before_dash :
    (Pattern.compile "[0-9]-?*").map (·.test "7-ab") =
        (Pattern.compile "[0-9]`-?*").map (·.test "7-ab") ∧
      (Pattern.compile "[0-9]-?*").map (·.test "7-ab") = .ok true := by
  have closes : (readClass "0-9]").rest? = some [] := by decide +kernel
  have place : Place "[0-9]" '-' "?*" := {
    unescaped := by decide +kernel
    ordinary := by decide +kernel
    outside := .closed closes .nil
    outsideEscaped := .closed closes .nil }
  have unaffected : Unaffected (toGlob "[0-9]") '-' (toGlob "?*") false := {
    shaped := by decide +kernel
    bar := fun impossible => absurd impossible (by decide)
    strict := fun _ => by decide +kernel
    whole := fun _ impossible => absurd impossible (by decide +kernel) }
  exact ⟨backtick_changes_nothing "[0-9]" '-' "?*" false place (by decide +kernel)
    (by decide +kernel) (Or.inr (Or.inr unaffected)) "7-ab", by rfl⟩

theorem backtick_behind_star_counts :
    ¬∀ (front : Text) (c : CodeUnit) (back : Text), Place front c back →
      (toGlob (front ++ c :: back)).length ≤ maxGlobLength →
      (toGlob (front ++ ('\x60' : CodeUnit) :: c :: back)).length ≤ maxGlobLength →
      ∀ t : Text, (Pattern.compile (front ++ c :: back)).map (·.test t) =
        (Pattern.compile (front ++ ('\x60' : CodeUnit) :: c :: back)).map (·.test t) := by
  intro always
  have place : Place "*" 'a' [] := {
    unescaped := by decide +kernel
    ordinary := by decide +kernel
    outside := .unit (by decide +kernel) .nil
    outsideEscaped := .unit (by decide +kernel) .nil }
  have same := always "*" 'a' [] place (by decide +kernel) (by decide +kernel) "a"
  have plain : (Pattern.compile "*a").map (·.test "a") = .ok true := by rfl
  have escaped : (Pattern.compile "*`a").map (·.test "a") = .ok false := by rfl
  exact absurd (Except.ok.inj (plain.symm.trans (same.trans escaped))) (by decide)

end Patterns

end TabCompletion.Wildcard
