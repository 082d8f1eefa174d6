import TabCompletion.Proofs.Wildcard.Brackets
import TabCompletion.Proofs.Wildcard.Extension

/-!
What compiling reads, apart from what it has seen before. A glob is read as a list of effects that
does not depend on the state, and compiling is to apply them in order. Text that stands outside the
bracket expressions of two globs that start alike is reached by both with the same effects before
it.
-/

namespace TabCompletion.Wildcard

/-! Effects. -/

section Effects

/-- What one step of compiling does to the state. -/
inductive Effect where
  | bar
  | literal (u : CodeUnit) (unitEscape : Bool)
  | wild (piece : Piece) (byPoints : Bool)
  | invalid

def Compilation.after (state : Compilation) : Effect → Compilation
  | .bar => { state with finished := state.pieces.reverse :: state.finished, pieces := [] }
  | .literal u unitEscape =>
      { state with
        pieces := .literal u.toNat :: state.pieces
        unitEscape := state.unitEscape || unitEscape }
  | .wild piece byPoints =>
      { state with
        pieces := piece :: state.pieces
        wild := true
        byPoints := state.byPoints || byPoints }
  | .invalid => { state with wild := true, invalid := true }

/-- What the effect adds to the text that a glob without wildcards stands for. -/
def Effect.said : Effect → Text
  | .bar => "|"
  | .literal u _ => [u]
  | _ => []

/-- The glob is read as the effects. A class that no text matches and one that is refused take the
rest of the glob with them. -/
inductive Reads : Text → List Effect → Prop
  | nil : Reads [] []
  | alone : Reads ['\\'] [.literal '\\' false]
  | bar {t : Text} {es : List Effect} (later : Reads t es) : Reads ('\\' :: '|' :: t) (.bar :: es)
  | escaped {u : CodeUnit} {t : Text} {es : List Effect} (other : u ≠ '|') (later : Reads t es) :
      Reads ('\\' :: u :: t) (.literal u (u == '!') :: es)
  | unclosed {t : Text} {es : List Effect} (read : readClass t = .unclosed) (later : Reads t es) :
      Reads ('[' :: t) (.literal '[' false :: es)
  | never {t : Text} (read : readClass t = .never) : Reads ('[' :: t) [.wild .never false]
  | invalid {t : Text} (read : readClass t = .invalid) : Reads ('[' :: t) [.invalid]
  | unit {t left : Text} {es : List Effect} {u : CodeUnit} (read : readClass t = .literal u left)
      (later : Reads left es) : Reads ('[' :: t) (.literal u (isLooseEscape u) :: es)
  | set {t left : Text} {es : List Effect} {members : CharSet} {byPoints : Bool}
      (read : readClass t = .set members byPoints left) (later : Reads left es) :
      Reads ('[' :: t) (.wild (.oneOf members) byPoints :: es)
  | star {t : Text} {es : List Effect} (later : Reads t es) :
      Reads ('*' :: t) (.wild .anyMany false :: es)
  | question {t : Text} {es : List Effect} (later : Reads t es) :
      Reads ('?' :: t) (.wild .anyOne false :: es)
  | ordinary {u : CodeUnit} {t : Text} {es : List Effect}
      (ordinary : u ∉ (['\\', '[', '*', '?'] : Text)) (later : Reads t es) :
      Reads (u :: t) (.literal u (isLooseEscape u) :: es)

variable {t left : Text} {es : List Effect} {u : CodeUnit}

theorem left_shorter (closes : (readClass t).rest? = some left) : left.length < t.length :=
  (readClass_rest closes).length_le

/-- A unit that is not escaped and opens no bracket is read for itself. -/
theorem reads_unit (plain : u ≠ '\\' ∧ u ≠ '[') :
    ∃ effect, ∀ {t es}, Reads t es → Reads (u :: t) (effect :: es) := by
  by_cases star : u = '*'
  · subst star
    exact ⟨_, .star⟩
  by_cases question : u = '?'
  · subst question
    exact ⟨_, .question⟩
  · have ordinary : u ∉ (['\\', '[', '*', '?'] : Text) := by
      simp only [List.mem_cons, List.not_mem_nil, or_false, not_or]
      exact ⟨plain.1, plain.2, star, question⟩
    exact ⟨_, .ordinary ordinary⟩

theorem reads_escaped (u : CodeUnit) :
    ∃ effect, ∀ {t es}, Reads t es → Reads ('\\' :: u :: t) (effect :: es) := by
  by_cases bar : u = '|'
  · subst bar
    exact ⟨_, .bar⟩
  · exact ⟨_, .escaped bar⟩

/-- A class that was closed is read for itself, whatever follows it. -/
theorem reads_closed (closes : (readClass t).rest? = some left) :
    ∃ effect, ∀ {more es}, Reads (left ++ more) es →
      Reads (('[' : CodeUnit) :: t ++ more) (effect :: es) := by
  have ended : readClass t ≠ .unclosed := by
    intro unclosed
    rw [unclosed] at closes
    cases closes
  have extended := readClass_append ended
  cases read : readClass t with
  | unclosed => exact absurd read ended
  | never =>
      rw [read] at closes
      cases closes
  | invalid =>
      rw [read] at closes
      cases closes
  | literal u rest =>
      rw [read] at closes extended
      cases closes
      exact ⟨_, fun later => .unit (extended _) later⟩
  | set members byPoints rest =>
      rw [read] at closes extended
      cases closes
      exact ⟨_, fun later => .set (extended _) later⟩

/-- Every glob is read as some effects. -/
theorem exists_reads (t : Text) : ∃ es, Reads t es := by
  -- The induction is on the length, since a class is read as a whole.
  induction length : t.length using Nat.strong_induction_on generalizing t with
  | _ n ih =>
      subst length
      have further : ∀ {shorter : Text}, shorter.length < t.length → ∃ es, Reads shorter es :=
        fun shorter => ih _ shorter _ rfl
      cases t with
      | nil => exact ⟨_, .nil⟩
      | cons u rest =>
          obtain ⟨es, later⟩ := further (Nat.lt_succ_self rest.length)
          by_cases escape : u = '\\'
          · subst escape
            cases rest with
            | nil => exact ⟨_, .alone⟩
            | cons v rest =>
                obtain ⟨effect, read⟩ := reads_escaped v
                have shorter : rest.length < rest.length + 2 := Nat.lt_add_of_pos_right (by decide)
                obtain ⟨es, later⟩ := further shorter
                exact ⟨_, read later⟩
          by_cases bracket : u = '['
          · subst bracket
            cases read : readClass rest with
            | unclosed => exact ⟨_, .unclosed read later⟩
            | never => exact ⟨_, .never read⟩
            | invalid => exact ⟨_, .invalid read⟩
            | literal v left =>
                have shorter : left.length < rest.length := left_shorter (by rw [read]; rfl)
                obtain ⟨es, later⟩ := further (Nat.lt_succ_of_lt shorter)
                exact ⟨_, .unit read later⟩
            | set members byPoints left =>
                have shorter : left.length < rest.length := left_shorter (by rw [read]; rfl)
                obtain ⟨es, later⟩ := further (Nat.lt_succ_of_lt shorter)
                exact ⟨_, .set read later⟩
          · obtain ⟨effect, read⟩ := reads_unit ⟨escape, bracket⟩
            exact ⟨_, read later⟩

theorem after_literal (state : Compilation) (u : CodeUnit) :
    state.after (.literal u false) = state.push (.literal u.toNat) := by
  simp [Compilation.after, Compilation.push]

theorem after_wild (state : Compilation) (piece : Piece) :
    state.after (.wild piece false) = { state with wild := true }.push piece := by
  simp [Compilation.after, Compilation.push]

/-- What reading one effect leaves of a glob: the effect speaks of units of the glob only, and one
step of compiling applies it. -/
theorem reads_step {rest : Text} {effect : Effect} (reads : Reads (u :: rest) (effect :: es)) :
    ∃ left, Reads left es ∧ left <:+ rest ∧ (∀ v ∈ effect.said, v ∈ u :: rest) ∧
      ∀ fuel state, Compilation.run (fuel + 1) state (u :: rest) =
        Compilation.run fuel (state.after effect) left := by
  have itself : ∀ {w : CodeUnit} {more : Text}, ∀ v ∈ [w], v ∈ w :: more :=
    fun v listed => List.mem_cons.mpr (Or.inl (List.mem_singleton.mp listed))
  have silent : ∀ {more : Text}, ∀ v ∈ ([] : Text), v ∈ more :=
    fun v impossible => absurd impossible List.not_mem_nil
  have ended : ∀ (fuel : Nat) (state : Compilation), Compilation.run fuel state [] = state := by
    intro fuel state
    cases fuel <;> rfl
  cases reads with
  | alone =>
      refine ⟨[], .nil, List.suffix_refl [], itself, fun fuel state => ?_⟩
      rw [ended]
      exact (after_literal state _).symm
  | bar later =>
      exact ⟨_, later, List.suffix_cons _ _, fun v here => List.mem_cons_of_mem _ (itself v here),
        fun fuel state => rfl⟩
  | escaped other later =>
      exact ⟨_, later, List.suffix_cons _ _, fun v here => List.mem_cons_of_mem _ (itself v here),
        fun fuel state => run_behind other fuel state _⟩
  | unclosed read later =>
      refine ⟨_, later, List.suffix_refl _, itself, fun fuel state => ?_⟩
      rw [run_bracket, read, after_literal]
      rfl
  | never read =>
      refine ⟨[], .nil, List.nil_suffix, silent, fun fuel state => ?_⟩
      rw [run_bracket, read, after_wild, ended]
      rfl
  | invalid read =>
      refine ⟨[], .nil, List.nil_suffix, silent, fun fuel state => ?_⟩
      rw [run_bracket, read, ended]
      rfl
  | unit read later =>
      have closed := readClass_rest (by rw [read]; rfl)
      refine ⟨_, later, (List.suffix_cons _ _).trans closed, fun v here => ?_, fun fuel state => ?_⟩
      · rw [List.mem_singleton.mp here]
        exact List.mem_cons_of_mem _ (readClass_literal read)
      · rw [run_bracket, read]
        rfl
  | set read later =>
      have closed := readClass_rest (by rw [read]; rfl)
      refine ⟨_, later, (List.suffix_cons _ _).trans closed, silent, fun fuel state => ?_⟩
      rw [run_bracket, read]
      rfl
  | star later =>
      refine ⟨_, later, List.suffix_refl _, silent, fun fuel state => ?_⟩
      rw [after_wild]
      rfl
  | question later =>
      refine ⟨_, later, List.suffix_refl _, silent, fun fuel state => ?_⟩
      rw [after_wild]
      rfl
  | ordinary ordinary later =>
      exact ⟨_, later, List.suffix_refl _, itself, fun fuel state => run_ordinary ordinary fuel state _⟩

/-- Compiling applies the effects in order. -/
theorem run_reads (reads : Reads t es) {fuel : Nat} (enough : t.length < fuel)
    (state : Compilation) : Compilation.run fuel state t = es.foldl Compilation.after state := by
  induction es generalizing t fuel state with
  | nil =>
      cases reads
      cases fuel <;> rfl
  | cons effect es ih =>
      cases t with
      | nil => cases reads
      | cons u rest =>
          obtain ⟨left, later, within, -, applied⟩ := reads_step reads
          obtain ⟨fuel, rfl⟩ := Nat.exists_eq_succ_of_ne_zero (Nat.ne_zero_of_lt enough)
          have shorter : left.length < fuel :=
            Nat.lt_of_le_of_lt within.length_le (Nat.lt_of_succ_lt_succ enough)
          rw [applied, List.foldl_cons]
          exact ih later shorter _

/-- What a glob stands for is taken from its text. -/
theorem said_mem (reads : Reads t es) (said : u ∈ es.flatMap Effect.said) : u ∈ t := by
  induction es generalizing t with
  | nil => cases said
  | cons effect es ih =>
      cases t with
      | nil => cases reads
      | cons v rest =>
          obtain ⟨left, later, within, spoken, -⟩ := reads_step reads
          rcases List.mem_append.mp said with here | further
          · exact spoken u here
          · exact List.mem_cons_of_mem v (within.subset (ih later further))

theorem compilation_reads (reads : Reads t es) :
    compilation t = es.foldl Compilation.after {} := run_reads reads (Nat.lt_succ_self _) {}

end Effects

/-! Outside of bracket expressions. -/

section Places

/-- Read behind the glob, the text stands outside its bracket expressions: each of them is closed
before the text, or its bracket is closed nowhere and is an ordinary character. -/
inductive Outside (text : Text) : Text → Prop
  | nil : Outside text []
  | escaped (u : CodeUnit) {t : Text} (later : Outside text t) : Outside text ('\\' :: u :: t)
  | unit {u : CodeUnit} {t : Text} (plain : u ≠ '\\' ∧ u ≠ '[') (later : Outside text t) :
      Outside text (u :: t)
  | unclosed {t : Text} (read : readClass (t ++ text) = .unclosed) (later : Outside text t) :
      Outside text ('[' :: t)
  | closed {t left : Text} (closes : (readClass t).rest? = some left) (later : Outside text left) :
      Outside text ('[' :: t)
  | cut {t : Text} (read : readClass t = .never ∨ readClass t = .invalid) : Outside text ('[' :: t)

/-- Behind the glob either text is reached with the same effects before it, or neither is. -/
def ReachedAlike (g x y : Text) : Prop :=
  (∃ es, Reads (g ++ x) es ∧ Reads (g ++ y) es) ∨
    ∃ front, ∀ es, (Reads x es → Reads (g ++ x) (front ++ es)) ∧
      (Reads y es → Reads (g ++ y) (front ++ es))

variable {g t x y left : Text}

theorem ReachedAlike.prepend (reached : ReachedAlike t x y) {effect : Effect}
    (read : ∀ {es}, Reads (t ++ x) es → Reads (g ++ x) (effect :: es))
    (read' : ∀ {es}, Reads (t ++ y) es → Reads (g ++ y) (effect :: es)) : ReachedAlike g x y := by
  rcases reached with ⟨es, reads, reads'⟩ | ⟨front, reads⟩
  · exact Or.inl ⟨effect :: es, read reads, read' reads'⟩
  · refine Or.inr ⟨effect :: front, fun es => ⟨fun later => ?_, fun later => ?_⟩⟩
    · exact read ((reads es).1 later)
    · exact read' ((reads es).2 later)

theorem not_unclosed_append (ended : readClass t ≠ .unclosed) (more : Text) :
    readClass (t ++ more) ≠ .unclosed := by
  rw [readClass_append ended]
  cases read : readClass t with
  | unclosed => exact absurd read ended
  | _ => exact fun impossible => nomatch impossible

theorem ended_of_rest (closes : (readClass t).rest? = some left) : readClass t ≠ .unclosed := by
  intro unclosed
  rw [unclosed] at closes
  cases closes

theorem ended_of_cut (read : readClass t = .never ∨ readClass t = .invalid) :
    readClass t ≠ .unclosed := by
  rcases read with read | read
  all_goals
    rw [read]
    exact fun impossible => nomatch impossible

theorem outside_unit {u : CodeUnit} (plain : u ≠ '\\' ∧ u ≠ '[') (outside : Outside x (u :: t)) :
    Outside x t := by
  cases outside with
  | escaped => exact absurd rfl plain.1
  | unit _ later => exact later
  | unclosed => exact absurd rfl plain.2
  | closed => exact absurd rfl plain.2
  | cut => exact absurd rfl plain.2

theorem reachedAlike (outside : Outside x g) (outside' : Outside y g) : ReachedAlike g x y := by
  induction outside with
  | nil => exact Or.inr ⟨[], fun es => ⟨id, id⟩⟩
  | @escaped u t later ih =>
      have later' : Outside y t := by
        cases outside' with
        | escaped _ later' => exact later'
        | unit plain => exact absurd rfl plain.1
      obtain ⟨effect, read⟩ := reads_escaped u
      exact (ih later').prepend read read
  | unit plain later ih =>
      obtain ⟨effect, read⟩ := reads_unit plain
      exact (ih (outside_unit plain outside')).prepend read read
  | @unclosed t read later ih =>
      cases outside' with
      | unit plain => exact absurd rfl plain.2
      | unclosed read' later' => exact (ih later').prepend (.unclosed read) (.unclosed read')
      | closed closes => exact absurd read (not_unclosed_append (ended_of_rest closes) x)
      | cut ends => exact absurd read (not_unclosed_append (ended_of_cut ends) x)
  | closed closes later ih =>
      cases outside' with
      | unit plain => exact absurd rfl plain.2
      | unclosed read => exact absurd read (not_unclosed_append (ended_of_rest closes) y)
      | closed closes' later' =>
          rw [closes, Option.some.injEq] at closes'
          subst closes'
          obtain ⟨effect, read⟩ := reads_closed closes
          exact (ih later').prepend read read
      | cut ends => rcases ends with ends | ends <;> rw [ends] at closes <;> cases closes
  | cut ends =>
      -- What is cut off is not read, so both globs end here.
      have extended := readClass_append (ended_of_cut ends)
      rcases ends with never | invalid
      · rw [never] at extended
        exact Or.inl ⟨_, .never (extended x), .never (extended y)⟩
      · rw [invalid] at extended
        exact Or.inl ⟨_, .invalid (extended x), .invalid (extended y)⟩

end Places

/-! States. -/

section States

variable {state : Compilation} {effect : Effect} {es : List Effect}

def Effect.isWild : Effect → Bool
  | .wild _ _ | .invalid => true
  | _ => false

/-- The effect without what it says about escaping. -/
def Effect.unescaping : Effect → Effect
  | .literal u _ => .literal u false
  | effect => effect

def Compilation.unescaping (state : Compilation) : Compilation := { state with unitEscape := false }

theorem wild_foldl (state : Compilation) (es : List Effect) :
    (es.foldl Compilation.after state).wild = (state.wild || es.any Effect.isWild) := by
  induction es generalizing state with
  | nil => simp
  | cons effect rest ih =>
      rw [List.foldl_cons, ih, List.any_cons]
      cases effect <;> simp [Compilation.after, Effect.isWild]

theorem tame_of_compilation {t : Text} (reads : Reads t es) (tame : (compilation t).wild = false) :
    es.any Effect.isWild = false := by
  rw [compilation_reads reads, wild_foldl] at tame
  exact tame

theorem unescaping_foldl (state : Compilation) (es : List Effect) :
    (es.foldl Compilation.after state).unescaping =
      (es.map Effect.unescaping).foldl Compilation.after state.unescaping := by
  induction es generalizing state with
  | nil => rfl
  | cons effect rest ih =>
      rw [List.foldl_cons, ih, List.map_cons, List.foldl_cons]
      cases effect <;> rfl

/-- Effects that differ only in what they say about escaping lead to the same state but for that. -/
theorem unescaping_congr {t t' : Text} {es es' : List Effect} (reads : Reads t es)
    (reads' : Reads t' es') (same : es.map Effect.unescaping = es'.map Effect.unescaping) :
    (compilation t).unescaping = (compilation t').unescaping := by
  rw [compilation_reads reads, compilation_reads reads', unescaping_foldl, unescaping_foldl, same]

theorem spoken_after (tame : effect.isWild = false) :
    (state.after effect).spoken = state.spoken ++ effect.said := by
  cases effect with
  | bar => exact state.spoken_bar
  | literal u unitEscape =>
      simp only [Compilation.spoken, literalText, Compilation.after, List.reverse_cons,
        List.map_append, List.map_cons, List.map_nil, List.flatMap_append, List.flatMap_cons,
        List.flatMap_nil, List.append_nil, Text.unitsOfPoint_toNat]
      exact join_extended _ _ _ _
  | wild piece byPoints => cases tame
  | invalid => cases tame

theorem spoken_foldl (tame : es.any Effect.isWild = false) (state : Compilation) :
    (es.foldl Compilation.after state).spoken = state.spoken ++ es.flatMap Effect.said := by
  induction es generalizing state with
  | nil => simp
  | cons effect rest ih =>
      rw [List.any_cons, Bool.or_eq_false_iff] at tame
      rw [List.foldl_cons, ih tame.2, spoken_after tame.1, List.flatMap_cons, List.append_assoc]

/-- Where nothing is wild, a glob with one alternative is read as the units that it stands for. -/
theorem single_foldl (tame : es.any Effect.isWild = false) (state : Compilation)
    (single : (es.foldl Compilation.after state).finished = []) :
    state.finished = [] ∧ (es.foldl Compilation.after state).pieces =
      ((es.flatMap Effect.said).map fun u => .literal u.toNat).reverse ++ state.pieces := by
  induction es generalizing state with
  | nil => exact ⟨single, rfl⟩
  | cons effect rest ih =>
      rw [List.any_cons, Bool.or_eq_false_iff] at tame
      obtain ⟨finished, pieces⟩ := ih tame.2 (state.after effect) single
      rw [List.foldl_cons, pieces]
      cases effect with
      | bar => cases finished
      | literal u unitEscape => exact ⟨finished, by simp [Compilation.after, Effect.said]⟩
      | wild piece byPoints => cases tame.1
      | invalid => cases tame.1

theorem valid_foldl (tame : es.any Effect.isWild = false) (state : Compilation) :
    (es.foldl Compilation.after state).invalid = state.invalid ∧
      (es.foldl Compilation.after state).byPoints = state.byPoints := by
  induction es generalizing state with
  | nil => exact ⟨rfl, rfl⟩
  | cons effect rest ih =>
      rw [List.any_cons, Bool.or_eq_false_iff] at tame
      rw [List.foldl_cons, (ih tame.2 _).1, (ih tame.2 _).2]
      cases effect with
      | bar => exact ⟨rfl, rfl⟩
      | literal u unitEscape => exact ⟨rfl, rfl⟩
      | wild piece byPoints => cases tame.1
      | invalid => cases tame.1

end States

/-! Globs that are read alike. -/

section Alike

variable {g g' : Text} {es : List Effect} {cs : Bool}

/-- Globs that are read alike compile alike if they agree on letter case and neither is simple. -/
theorem compileGlob_congr (nonempty : g ≠ []) (nonempty' : g' ≠ [])
    (short : g.length ≤ maxGlobLength) (short' : g'.length ≤ maxGlobLength)
    (same : (compilation g).unescaping = (compilation g').unescaping)
    (valid : (compilation g).isValid = (compilation g').isValid)
    (cased : (compilation g).wild = false →
      (!cs && Text.upper g != Text.lower g) = (!cs && Text.upper g' != Text.lower g'))
    (shaped : simpleMatcher? g (!cs) = none) (shaped' : simpleMatcher? g' (!cs) = none) :
    compileGlob g cs = compileGlob g' cs := by
  have alternatives : (compilation g).alternatives = (compilation g').alternatives := by
    have kept := congrArg Compilation.alternatives same
    exact kept
  have matcher : (compilation g).shaped cs = (compilation g').shaped cs := by
    have kept := congrArg (Compilation.shaped · cs) same
    exact kept
  have wild : (compilation g).wild = (compilation g').wild := by
    have kept := congrArg Compilation.wild same
    exact kept
  rw [compileGlob_eq nonempty short, compileGlob_eq nonempty' short', shaped, shaped', valid,
    alternatives, matcher, ← wild]
  cases tame : (compilation g).wild with
  | true => rfl
  | false => rw [cased tame]

theorem spoken_eq (state : Compilation) : state.spoken = literalText state.alternatives := by
  rw [Compilation.spoken, List.reverse_cons]
  rfl

/-- A glob in which nothing is wild and that has no letter case compiles to what it stands for. -/
theorem compileGlob_spoken (nonempty : g ≠ []) (short : g.length ≤ maxGlobLength)
    (reads : Reads g es) (tame : es.any Effect.isWild = false)
    (uncased : cs = false → Text.upper g = Text.lower g) :
    compileGlob g cs = .ok (.exactly (es.flatMap Effect.said)) := by
  have compiled := compilation_reads reads
  have isTame : (compilation g).wild = false := by
    rw [compiled, wild_foldl, tame]
    rfl
  have notCased : (!cs && Text.upper g != Text.lower g) = false := by
    cases cs with
    | true => rfl
    | false => simp [uncased rfl]
  rw [compileGlob_eq nonempty short, isTame, notCased, ← spoken_eq, compiled, spoken_foldl tame]
  rfl

end Alike

/-! Compiled globs without wildcards. -/

section Tame

variable {c : Comparison} {us t g : Text} {es : List Effect} {cs : Bool}

def units (us : Text) : List Piece := us.map fun u => .literal u.toNat

theorem startsOpen_literals (us : Text) : startsOpen (units us) = false := by
  rcases us with _ | ⟨u, _ | ⟨v, _ | ⟨w, rest⟩⟩⟩ <;> simp [units, startsOpen, Piece.isBracket]

theorem matchesAll_units :
    matchesAll c (units us) (t.map (·.toNat)) = true ↔ c.SameText us t := by
  induction us generalizing t with
  | nil => cases t <;> simp [units, matchesAll_nil, Comparison.SameText]
  | cons u rest ih =>
      cases t with
      | nil => simp [units, matchesAll_single_nil, Comparison.SameText]
      | cons w more =>
          rw [units, List.map_cons, List.map_cons, matchesAll_single_cons (by simp),
            Bool.and_eq_true, sameText_cons, ← ih]
          rfl

theorem sameText_alone (alone : ∀ u ∈ us, ∀ w : CodeUnit, c.same u.toNat w.toNat = true → w = u) :
    c.SameText us t ↔ t = us := by
  induction us generalizing t with
  | nil => cases t <;> simp [Comparison.SameText]
  | cons u rest ih =>
      cases t with
      | nil => simp [Comparison.SameText]
      | cons w more =>
          obtain ⟨here, later⟩ := List.forall_mem_cons.mp alone
          have same : c.same u.toNat w.toNat = true ↔ w = u :=
            ⟨here w, fun equal => by rw [equal, c.same_refl]⟩
          rw [sameText_cons, same, ih later, List.cons.injEq]

/-- A glob in which nothing is wild and no bar is escaped matches what it stands for, whether it is
compared as one text or unit by unit. -/
theorem compileGlob_alone (nonempty : g ≠ []) (short : g.length ≤ maxGlobLength)
    (reads : Reads g es) (tame : es.any Effect.isWild = false)
    (single : (compilation g).finished = []) (shaped : simpleMatcher? g (!cs) = none) :
    ∃ matcher, compileGlob g cs = .ok matcher ∧ ∀ t, matcher.test t = true ↔
      (unitwise cs).SameText (es.flatMap Effect.said) t := by
  have compiled := compilation_reads reads
  rw [compiled] at single
  have pieces := (single_foldl tame {} single).2
  have valid := valid_foldl tame {}
  have isTame : (compilation g).wild = false := by rw [compiled, wild_foldl, tame]; rfl
  have alternatives : (compilation g).alternatives = [units (es.flatMap Effect.said)] := by
    rw [Compilation.alternatives, compiled, single, pieces]
    simp [units]
  have isValid : (compilation g).isValid = true := by
    rw [Compilation.isValid, compiled, valid.1, valid.2]
    rfl
  have comparison : (compilation g).comparison cs = unitwise cs := by
    rw [Compilation.comparison, compiled, valid.2]
    cases cs <;> rfl
  by_cases uncased : cs = false → Text.upper g = Text.lower g
  · refine ⟨_, compileGlob_spoken nonempty short reads tame uncased, fun t => ?_⟩
    have alone : ∀ u ∈ es.flatMap Effect.said, ∀ w : CodeUnit,
        (unitwise cs).same u.toNat w.toNat = true → w = u := by
      intro u said w same
      rw [← UInt16.toNat_inj]
      cases cs with
      | true => exact (beq_iff_eq.mp same).symm
      | false =>
          have listed := said_mem reads said
          exact Text.alone_of_uncased (uncased rfl) listed (beq_iff_eq.mp same).symm
    rw [sameText_alone alone, Matcher.test, beq_iff_eq]
  · have cased : (!cs && Text.upper g != Text.lower g) = true := by
      rw [Classical.not_imp] at uncased
      rw [uncased.1, Bool.not_false, Bool.true_and, bne_iff_ne]
      exact uncased.2
    refine ⟨(compilation g).shaped cs, ?_, fun t => ?_⟩
    · rw [compileGlob_eq nonempty short, isTame, isValid, shaped, cased]
      rfl
    have view : (unitwise cs).view t = t.map (·.toNat) := by cases cs <;> rfl
    rw [Compilation.shaped, alternatives, comparison]
    simp [Matcher.test, openEnds, startsOpen_literals, view, matchesAll_units]

end Tame

end TabCompletion.Wildcard
