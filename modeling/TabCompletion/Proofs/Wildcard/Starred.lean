import Mathlib.Data.List.TakeWhile
import TabCompletion.Proofs.Wildcard.Signs

/-!
Patterns that end in a star. Without brackets and escaped bars such a pattern compiles to a matcher
of the texts it stands for, save the empty one and the two dot texts, whichever way it is compiled:
as one text, as a matcher of its own or piece by piece. An escaped bar is not taken literally: it
separates alternatives.
-/

namespace TabCompletion.Wildcard

/-! Glob notation. -/

section Glob

def Mark.glob (m : Mark) : Text := if m.escaped then toGlob.escaped m.unit else toGlob.plain m.unit

def glob (ms : List Mark) : Text := ms.flatMap Mark.glob

theorem toGlob_eq (p : Text) : toGlob p = glob (marks p) := by
  fun_induction marks p with
  | case1 => rfl
  | case2 u => simp [toGlob, glob, Mark.glob]
  | case3 u v rest escape ih => rw [toGlob, if_pos escape, ih]; rfl
  | case4 u v rest plain ih => rw [toGlob, if_neg plain, ih]; rfl

theorem marks_last {p : Text} {u : CodeUnit} (ends : p.getLast? = some u) :
    ∃ front escaped, marks p = front ++ [⟨u, escaped⟩] := by
  fun_induction marks p with
  | case1 => simp at ends
  | case2 v =>
      simp only [List.getLast?_singleton, Option.some.injEq] at ends
      exact ⟨[], false, by rw [ends]; rfl⟩
  | case3 v w rest escape ih =>
      cases rest with
      | nil =>
          simp only [List.getLast?_cons_cons, List.getLast?_singleton, Option.some.injEq] at ends
          exact ⟨[], true, by rw [ends]; rfl⟩
      | cons x more =>
          obtain ⟨front, escaped, split⟩ := ih (by simpa using ends)
          exact ⟨⟨w, true⟩ :: front, escaped, by rw [split]; rfl⟩
  | case4 v w rest plain ih =>
      obtain ⟨front, escaped, split⟩ := ih (by simpa using ends)
      exact ⟨⟨v, false⟩ :: front, escaped, by rw [split]; rfl⟩

/-- How a mark is written: a slash as its stand-in, what is to be taken literally behind a
backslash and all else as it is. -/
inductive Written : Mark → Text → Prop
  | slash (escaped : Bool) : Written ⟨'/', escaped⟩ [slashStandIn]
  | behind {u : CodeUnit} {escaped : Bool} (notSlash : u ≠ '/')
      (literal : u = '\\' ∨ escaped = true) : Written ⟨u, escaped⟩ [('\\' : CodeUnit), u]
  | bare {u : CodeUnit} (notSlash : u ≠ '/') (notBackslash : u ≠ '\\') : Written ⟨u, false⟩ [u]

theorem Mark.written (m : Mark) : Written m m.glob := by
  obtain ⟨u, escaped⟩ := m
  by_cases isSlash : u = '/'
  · subst isSlash
    cases escaped <;> exact Written.slash _
  by_cases isBackslash : u = '\\'
  · subst isBackslash
    cases escaped <;> exact Written.behind (by decide) (Or.inl rfl)
  have notSlash : ¬(u == '/') = true := by rwa [beq_iff_eq]
  have notBackslash : ¬(u == '\\') = true := by rwa [beq_iff_eq]
  cases escaped with
  | false =>
      have isBare : Mark.glob ⟨u, false⟩ = [u] := (if_neg notSlash).trans (if_neg notBackslash)
      rw [isBare]
      exact Written.bare isSlash isBackslash
  | true =>
      have isBehind : Mark.glob ⟨u, true⟩ = [('\\' : CodeUnit), u] :=
        (if_neg notSlash).trans (if_neg notBackslash)
      rw [isBehind]
      exact Written.behind isSlash (Or.inr rfl)

variable {m : Mark} {g : Text}

theorem Written.slash_mem (written : Written m g) : Wildcard.slash m.unit ∈ g := by
  cases written with
  | slash => exact List.mem_singleton.mpr rfl
  | behind notSlash => simp [slash_of_ne notSlash]
  | bare notSlash => simp [slash_of_ne notSlash]

theorem run_behind {v : CodeUnit} (bar : v ≠ '|') (fuel : Nat) (state : Compilation) (rest : Text) :
    Compilation.run (fuel + 1) state ('\\' :: v :: rest) =
      Compilation.run fuel { state with
        pieces := .literal v.toNat :: state.pieces
        unitEscape := state.unitEscape || v == '!' } rest := by
  have isOther : ¬(v == '|') = true := by rwa [beq_iff_eq]
  exact if_neg isOther

theorem run_ordinary {u : CodeUnit} (ordinary : u ∉ (['\\', '[', '*', '?'] : Text)) (fuel : Nat)
    (state : Compilation) (rest : Text) :
    Compilation.run (fuel + 1) state (u :: rest) =
      Compilation.run fuel { state with
        pieces := .literal u.toNat :: state.pieces
        unitEscape := state.unitEscape || isLooseEscape u } rest := by
  simp only [List.mem_cons, List.not_mem_nil, or_false, not_or] at ordinary
  simp only [Compilation.run, beq_iff_eq, ordinary, if_false]
  rfl

def Sign.isWild : Sign → Bool
  | .unit _ => false
  | _ => true

/-- A mark that glob notation reads as it is meant. -/
def Mark.Plain (m : Mark) : Prop := m ≠ ⟨'[', false⟩ ∧ m ≠ ⟨'|', true⟩

def Compilation.adding (state : Compilation) (sign : Sign) (unitEscape : Bool) : Compilation :=
  { state with pieces := sign.piece :: state.pieces, wild := state.wild || sign.isWild, unitEscape }

theorem Compilation.adding_unit (state : Compilation) {u : CodeUnit} (notSlash : u ≠ '/')
    (unitEscape : Bool) : state.adding (.unit u) unitEscape =
      { state with pieces := .literal u.toNat :: state.pieces, unitEscape } := by
  simp [adding, Sign.piece, slash_of_ne notSlash, Sign.isWild]

theorem Mark.sign_literal {u : CodeUnit} {escaped : Bool}
    (literal : u = '/' ∨ u = '\\' ∨ escaped = true) : Mark.sign ⟨u, escaped⟩ = .unit u := by
  rcases literal with rfl | rfl | rfl
  · cases escaped <;> rfl
  · cases escaped <;> rfl
  · rfl

/-- Compiling a mark adds its piece. -/
theorem run_mark (written : Written m g) (plain : m.Plain) (fuel : Nat) (state : Compilation)
    (rest : Text) : ∃ unitEscape, Compilation.run (fuel + 1) state (g ++ rest) =
      Compilation.run fuel (state.adding m.sign unitEscape) rest := by
  cases written with
  | slash escaped =>
      refine ⟨state.unitEscape || isLooseEscape slashStandIn, ?_⟩
      rw [Mark.sign_literal (Or.inl rfl), Compilation.adding, Sign.isWild, Bool.or_false]
      exact run_ordinary (by decide) fuel state rest
  | @behind u escaped notSlash literal =>
      have bar : u ≠ '|' := by
        rintro rfl
        exact plain.2 (by rw [literal.resolve_left (by decide)])
      refine ⟨state.unitEscape || u == '!', ?_⟩
      rw [Mark.sign_literal (Or.inr literal), Compilation.adding_unit state notSlash]
      exact run_behind bar fuel state rest
  | @bare u notSlash notBackslash =>
      by_cases wild : u = '*' ∨ u = '?'
      · refine ⟨state.unitEscape, ?_⟩
        have isWild : (Mark.sign ⟨u, false⟩).isWild = true := by
          rcases wild with rfl | rfl <;> rfl
        rw [Compilation.adding, isWild, Bool.or_true]
        rcases wild with rfl | rfl <;> rfl
      · rw [not_or] at wild
        have bracket : u ≠ '[' := by
          rintro rfl
          exact plain.1 rfl
        have ordinary : u ∉ (['\\', '[', '*', '?'] : Text) := by
          simp only [List.mem_cons, List.not_mem_nil, or_false, not_or]
          exact ⟨notBackslash, bracket, wild⟩
        have isUnit : Mark.sign ⟨u, false⟩ = .unit u := by
          simp only [Mark.sign, beq_iff_eq, wild, if_false, Bool.false_eq_true]
        refine ⟨state.unitEscape || isLooseEscape u, ?_⟩
        rw [isUnit, Compilation.adding_unit state notSlash]
        exact run_ordinary ordinary fuel state rest

/-- Marks that glob notation reads as they are meant. A bracket that is closed nowhere is an
ordinary character. -/
inductive Legible : List Mark → Prop
  | nil : Legible []
  | plain {m : Mark} {ms : List Mark} (isPlain : m.Plain) (later : Legible ms) : Legible (m :: ms)
  | unclosed {ms : List Mark} (read : readClass (glob ms) = .unclosed) (later : Legible ms) :
      Legible (⟨'[', false⟩ :: ms)

theorem legible_of_plain {ms : List Mark} (plain : ∀ m ∈ ms, m.Plain) : Legible ms := by
  induction ms with
  | nil => exact .nil
  | cons m rest ih =>
      obtain ⟨here, later⟩ := List.forall_mem_cons.mp plain
      exact .plain here (ih later)

/-- Whether a bracket opens a class with what follows it. -/
def ClassReading.isClass : ClassReading → Bool
  | .unclosed => false
  | _ => true

/-- Whether some bracket of a glob opens a class. -/
def opensClass : Text → Bool
  | [] => false
  | u :: rest => u == '[' && (readClass rest).isClass || opensClass rest

theorem opensClass_append (front rest : Text) (classless : opensClass (front ++ rest) = false) :
    opensClass rest = false := by
  induction front with
  | nil => exact classless
  | cons u front ih =>
      rw [List.cons_append, opensClass, Bool.or_eq_false_iff] at classless
      exact ih classless.2

theorem legible_of_classless {ms : List Mark} (barless : Mark.mk '|' true ∉ ms)
    (classless : opensClass (glob ms) = false) : Legible ms := by
  induction ms with
  | nil => exact .nil
  | cons m rest ih =>
      rw [List.mem_cons, not_or] at barless
      have split : glob (m :: rest) = m.glob ++ glob rest := List.flatMap_cons
      rw [split] at classless
      have later := ih barless.2 (opensClass_append _ _ classless)
      by_cases bracket : m = ⟨'[', false⟩
      · subst bracket
        refine .unclosed ?_ later
        have here : opensClass (('[' : CodeUnit) :: glob rest) = false := classless
        rw [opensClass, Bool.or_eq_false_iff, beq_self_eq_true, Bool.true_and] at here
        cases read : readClass (glob rest) with
        | unclosed => rfl
        | never | literal | set | invalid =>
            rw [read] at here
            cases here.1
      · exact .plain ⟨bracket, Ne.symm barless.1⟩ later

theorem run_unclosed {rest : Text} (read : readClass rest = .unclosed) (fuel : Nat)
    (state : Compilation) : Compilation.run (fuel + 1) state (('[' : CodeUnit) :: rest) =
      Compilation.run fuel (state.adding (.unit '[') state.unitEscape) rest := by
  rw [Compilation.adding_unit state (by decide)]
  simp only [Compilation.run, read]
  rfl

theorem run_marks {ms : List Mark} (legible : Legible ms) {fuel : Nat}
    (enough : ms.length ≤ fuel) (state : Compilation) :
    ∃ unitEscape, Compilation.run fuel state (glob ms) =
      { state with
        pieces := ((ms.map Mark.sign).map Sign.piece).reverse ++ state.pieces
        wild := state.wild || (ms.map Mark.sign).any Sign.isWild
        unitEscape } := by
  induction legible generalizing fuel state with
  | nil => cases fuel <;> exact ⟨state.unitEscape, by simp [glob, Compilation.run]⟩
  | @plain m rest isPlain later ih =>
      cases fuel with
      | zero => simp at enough
      | succ fuel =>
          obtain ⟨here, stepped⟩ := run_mark m.written isPlain fuel state (glob rest)
          obtain ⟨unitEscape, further⟩ := ih (Nat.le_of_succ_le_succ enough) (state.adding m.sign here)
          refine ⟨unitEscape, stepped.trans (further.trans ?_)⟩
          simp [Compilation.adding, Bool.or_assoc]
  | @unclosed rest read later ih =>
      cases fuel with
      | zero => simp at enough
      | succ fuel =>
          obtain ⟨unitEscape, further⟩ := ih (Nat.le_of_succ_le_succ enough)
            (state.adding (.unit '[') state.unitEscape)
          refine ⟨unitEscape, (run_unclosed read fuel state).trans (further.trans ?_)⟩
          rw [List.map_cons, show Mark.sign ⟨'[', false⟩ = .unit '[' from rfl]
          simp [Compilation.adding, Sign.isWild]

theorem length_le_glob (ms : List Mark) : ms.length ≤ (glob ms).length := by
  induction ms with
  | nil => exact Nat.le_refl 0
  | cons m rest ih =>
      have here := List.length_pos_of_mem m.written.slash_mem
      have split : glob (m :: rest) = m.glob ++ glob rest := List.flatMap_cons
      rw [split, List.length_append, List.length_cons]
      omega

/-- A glob without backslashes and stand-ins is made of marks that stand as they are. -/
theorem marks_of_bare {ms : List Mark} (bare : ∀ u ∈ glob ms, u ≠ '\\' ∧ u ≠ slashStandIn) :
    ms = (glob ms).map fun u => ⟨u, false⟩ := by
  induction ms with
  | nil => rfl
  | cons m rest ih =>
      have split : glob (m :: rest) = m.glob ++ glob rest := List.flatMap_cons
      have later := ih fun u isRest => bare u (split ▸ List.mem_append_right _ isRest)
      rw [split, List.map_append, ← later]
      have here : ∀ u ∈ m.glob, u ≠ '\\' ∧ u ≠ slashStandIn :=
        fun u isHere => bare u (split ▸ List.mem_append_left _ isHere)
      have written := m.written
      generalize m.glob = g at written here
      cases written with
      | slash => exact absurd rfl (here _ List.mem_cons_self).2
      | behind => exact absurd rfl (here _ List.mem_cons_self).1
      | bare => rfl

def isLiteral (ms : List Mark) (cs : Bool) : Bool :=
  !(ms.map Mark.sign).any Sign.isWild && !(!cs && Text.upper (glob ms) != Text.lower (glob ms))

theorem isLiteral_iff (ms : List Mark) (cs : Bool) : isLiteral ms cs = true ↔
    (ms.map Mark.sign).any Sign.isWild = false ∧
      (cs = false → Text.upper (glob ms) = Text.lower (glob ms)) := by
  rw [isLiteral, Bool.and_eq_true, Bool.not_eq_true', Bool.not_eq_true']
  cases cs <;> simp

theorem not_dots_of_ends {t : Text} (ends : t.getLast? = some ('*' : CodeUnit)) :
    isDots t = false := by
  rw [Bool.eq_false_iff]
  intro dots
  rcases isDots_iff.mp dots with one | two
  · rw [one] at ends
    exact absurd ends (by decide)
  · rw [two] at ends
    exact absurd ends (by decide)

theorem compileGlob_marks {ms : List Mark} (legible : Legible ms)
    (short : (glob ms).length ≤ maxGlobLength) (nonempty : glob ms ≠ [])
    (stars : glob ms ≠ Text.ofString "**") (cs : Bool) :
    compileGlob (glob ms) cs =
      let pieces := (ms.map Mark.sign).map Sign.piece
      .ok (if isLiteral ms cs then .exactly (literalText [pieces])
        else (simpleMatcher? (glob ms) (!cs)).getD
          (.shape [pieces] (unitwise cs) (startsOpen pieces && !isDots (glob ms)))) := by
  obtain ⟨unitEscape, ran⟩ := run_marks legible (Nat.le_succ_of_le (length_le_glob ms)) {}
  have isFilled : ¬(glob ms).isEmpty = true := by rwa [List.isEmpty_iff]
  rw [compileGlob, if_neg (Nat.not_lt.mpr short), if_neg isFilled]
  simp only [beq_iff_eq, stars, if_false, ran]
  simp only [Bool.false_or, Bool.false_and, Bool.false_eq_true, if_false, List.append_nil,
    List.reverse_reverse, List.reverse_cons, List.reverse_nil, List.nil_append, List.head?_cons,
    Option.map_some, Option.getD_some, openEnds]
  rw [← isLiteral, ← isDots]
  cases isLiteral ms cs with
  | true => rfl
  | false => cases simpleMatcher? (glob ms) (!cs) <;> rfl

end Glob

/-! Literal patterns. -/

section Literal

variable {cs : Bool} {us t : Text}

theorem literalText_units (us : Text) :
    literalText [(us.map Sign.unit).map Sign.piece] = us.map slash := by
  simp [literalText, Text.join, List.flatMap_map, Sign.piece, Text.unitsOfPoint_toNat,
    ← List.map_eq_flatMap]

theorem signs_of_tame {ms : List Mark} (tame : (ms.map Mark.sign).any Sign.isWild = false) :
    ms.map Mark.sign = (ms.map Mark.unit).map .unit := by
  rw [List.map_map]
  refine List.map_congr_left fun m listed => ?_
  have literal := List.any_eq_false.mp tame _ (List.mem_map_of_mem listed)
  simp only [Mark.sign] at literal ⊢
  split_ifs at literal ⊢ <;> simp_all [Sign.isWild]

end Literal

/-! Matchers. -/

section Matchers

variable {g t : Text}

theorem contains_iff {u : CodeUnit} : Text.contains t [u] = true ↔ u ∈ t := by
  induction t with
  | nil => simp [Text.contains, Text.indexOf?]
  | cons w rest ih =>
      rw [Text.contains, Text.indexOf?, List.mem_cons, ← ih]
      by_cases here : u = w
      · simp [here]
      · simp [here, Text.contains]

theorem startsWith_iff {u : CodeUnit} : Text.startsWith t [u] = true ↔ ∃ rest, t = u :: rest := by
  cases t with
  | nil => simp [Text.startsWith]
  | cons w rest => simp [Text.startsWith, @eq_comm _ u]

theorem special_of_ends {front rest : Text}
    (ends : (front ++ rest).getLast? = some ('*' : CodeUnit)) (nonempty : rest ≠ []) :
    rest.any isGlobSpecial = true := by
  rw [List.getLast?_append_of_ne_nil _ nonempty] at ends
  exact List.any_eq_true.mpr ⟨_, List.mem_of_getLast? ends, by decide⟩

def starRun (n : Nat) : Text := List.replicate (n + 1) '*'

theorem eq_starRun (nonempty : t ≠ []) (stars : ∀ u ∈ t, u = '*') : ∃ n, t = starRun n := by
  refine ⟨t.length - 1, ?_⟩
  rw [starRun, Nat.sub_add_cancel (List.length_pos_iff.mpr nonempty)]
  exact List.eq_replicate_length.mpr stars

/-- The matcher of its own that a glob with a star at the end has. -/
inductive Simple : Text → Option Matcher → Prop
  | stars (n : Nat) : Simple (starRun n) (some .anything)
  | dotted (k n : Nat) : Simple (starRun k ++ ('.' : CodeUnit) :: starRun n) (some .dotted)
  | dotLed (n : Nat) : Simple (('.' : CodeUnit) :: starRun n) (some .dotLed)
  | shaped {g : Text} {u : CodeUnit} (listed : u ∈ g) (other : u ≠ '*') : Simple g none

theorem Simple.bare {matcher : Matcher} (simple : Simple g (some matcher)) :
    ∀ u ∈ g, u = '*' ∨ u = '.' := by
  have star : ∀ {n : Nat}, ∀ u ∈ starRun n, u = '*' ∨ u = '.' :=
    fun u listed => Or.inl (List.eq_of_mem_replicate listed)
  cases simple with
  | stars n => exact star
  | dotted k n =>
      exact List.forall_mem_append.mpr ⟨star, List.forall_mem_cons.mpr ⟨Or.inr rfl, star⟩⟩
  | dotLed n => exact List.forall_mem_cons.mpr ⟨Or.inr rfl, star⟩

theorem Simple.other (simple : Simple g none) : ∃ u ∈ g, u ≠ '*' := by
  cases simple with
  | shaped listed other => exact ⟨_, listed, other⟩

theorem simpleMatcher?_simple (ends : g.getLast? = some ('*' : CodeUnit)) (ignoreCase : Bool) :
    Simple g (simpleMatcher? g ignoreCase) := by
  have split := List.takeWhile_append_dropWhile (p := fun (u : CodeUnit) => u == '*') (l := g)
  have split' := List.takeWhile_append_dropWhile (p := fun (u : CodeUnit) => u == '?') (l := g)
  have front : ∀ u ∈ g.takeWhile (fun (u : CodeUnit) => u == '*'), u = '*' :=
    fun u listed => beq_iff_eq.mp (List.all_eq_true.mp List.all_takeWhile u listed)
  simp only [simpleMatcher?, Bool.and_eq_true, Bool.not_eq_true', List.isEmpty_eq_false_iff,
    List.isEmpty_iff, List.all_eq_true, beq_iff_eq]
  split_ifs with stars ending sized dotted dotLed
  · rw [stars.2, List.append_nil] at split
    obtain ⟨n, isRun⟩ := eq_starRun stars.1 front
    rw [← split, isRun]
    exact Simple.stars n
  · -- What follows the first stars ends in a star again and is not plain text.
    have rest : g.dropWhile (fun (u : CodeUnit) => u == '*') ≠ [] :=
      fun none => stars ⟨ending.1, none⟩
    rw [← split] at ends
    exact absurd (special_of_ends ends rest) (by rw [ending.2]; decide)
  · have rest : g.dropWhile (fun (u : CodeUnit) => u == '?') ≠ [] := by
      intro none
      have question := List.dropWhile_eq_nil_iff.mp none _ (List.mem_of_getLast? ends)
      exact absurd question (by decide)
    rw [← split'] at ends
    exact absurd (special_of_ends ends rest) (by rw [sized.2]; decide)
  · obtain ⟨⟨some, starts⟩, nonempty, stars'⟩ := dotted
    obtain ⟨rest, isDot⟩ := startsWith_iff.mp starts
    rw [isDot] at split nonempty stars'
    obtain ⟨k, isRun⟩ := eq_starRun some front
    obtain ⟨n, isRun'⟩ := eq_starRun nonempty stars'
    rw [← split, isRun, show rest = starRun n from isRun']
    exact Simple.dotted k n
  · obtain ⟨starts, nonempty, stars'⟩ := dotLed
    obtain ⟨rest, isDot⟩ := startsWith_iff.mp starts
    rw [isDot] at nonempty stars' ⊢
    obtain ⟨n, isRun⟩ := eq_starRun nonempty stars'
    rw [show rest = starRun n from isRun]
    exact Simple.dotLed n
  · by_cases all : ∀ u ∈ g, u = '*'
    · have none : g.dropWhile (fun (u : CodeUnit) => u == '*') = [] :=
        List.dropWhile_eq_nil_iff.mpr fun u listed => beq_iff_eq.mpr (all u listed)
      rw [none, List.append_nil] at split
      have empty : g = [] := by
        by_contra nonempty
        exact stars ⟨split.symm ▸ nonempty, none⟩
      rw [empty] at ends
      simp at ends
    · simp only [not_forall] at all
      obtain ⟨u, listed, other⟩ := all
      exact Simple.shaped listed other

/-- The matcher takes what the signs stand for, save the empty and the dot texts. -/
def Matcher.Means (matcher : Matcher) (cs : Bool) (signs : List Sign) : Prop :=
  ∀ t : Text, slashStandIn ∉ t → (matcher.test (t.map slash) = true ↔
    fits (unitwise cs) signs t = true ∧ t ≠ [] ∧ isDots t = false)

variable {cs : Bool} {signs : List Sign} {ms : List Mark}

theorem signs_of_bare {g : Text} (isGlob : glob ms = g) (bare : ∀ u ∈ g, u = '*' ∨ u = '.') :
    ms.map Mark.sign = g.map fun u => Mark.sign ⟨u, false⟩ := by
  have isBare : ∀ u ∈ glob ms, u ≠ '\\' ∧ u ≠ slashStandIn := by
    intro u listed
    rcases bare u (isGlob ▸ listed) with rfl | rfl <;> decide
  rw [marks_of_bare isBare, List.map_map, isGlob]
  rfl

theorem map_starRun (n : Nat) :
    (starRun n).map (fun u => Mark.sign ⟨u, false⟩) = List.replicate (n + 1) .many :=
  List.map_replicate

theorem anything_means (n : Nat) : Matcher.anything.Means cs (List.replicate (n + 1) .many) := by
  intro t plain
  have stars : fits (unitwise cs) (List.replicate (n + 1) .many) t = true :=
    fits_stars (by simp) fun sign listed => List.eq_of_mem_replicate listed
  simp [Matcher.test, isDots_slashed, stars]

theorem dot_mem_slashed : ('.' : CodeUnit) ∈ t.map slash ↔ ('.' : CodeUnit) ∈ t := by
  simp only [List.mem_map]
  constructor
  · rintro ⟨u, listed, isDot⟩
    exact (slash_eq (by decide)).mp isDot ▸ listed
  · exact fun listed => ⟨_, listed, rfl⟩

theorem dotted_means (k n : Nat) : Matcher.dotted.Means cs
    (List.replicate (k + 1) .many ++ .unit '.' :: List.replicate (n + 1) .many) := by
  intro t plain
  have contains : Text.contains (t.map slash) "." = true ↔ ('.' : CodeUnit) ∈ t :=
    contains_iff.trans dot_mem_slashed
  rw [fits_starred_dot, Matcher.test, isDots_slashed, Bool.and_eq_true, Bool.not_eq_true', contains]
  exact ⟨fun ⟨other, listed⟩ => ⟨listed, List.ne_nil_of_mem listed, other⟩,
    fun ⟨listed, _, other⟩ => ⟨other, listed⟩⟩

theorem dotLed_means (n : Nat) : Matcher.dotLed.Means cs
    (.unit '.' :: List.replicate (n + 1) .many) := by
  intro t plain
  have starts : Text.startsWith (t.map slash) "." = true ↔
      ∃ rest, t = ('.' : CodeUnit) :: rest := by
    refine (startsWith_iff (u := '.')).trans ?_
    cases t with
    | nil => simp
    | cons w rest =>
        have isDot : slash w = '.' ↔ w = '.' := slash_eq (by decide)
        simp only [List.map_cons, List.cons.injEq, exists_and_left, exists_eq', and_true, isDot]
  rw [fits_dot, Matcher.test, isDots_slashed, Bool.and_eq_true, Bool.not_eq_true', starts]
  constructor
  · rintro ⟨other, rest, rfl⟩
    exact ⟨⟨rest, rfl⟩, List.cons_ne_nil _ _, other⟩
  · rintro ⟨led, -, other⟩
    exact ⟨other, led⟩

theorem exactly_means {us : Text} (plain : slashStandIn ∉ us)
    (ends : us.getLast? = some ('*' : CodeUnit)) (alone : ∀ u ∈ us, ∀ w : CodeUnit,
      (unitwise cs).same (slash u).toNat w.toNat = true → w = slash u) :
    (Matcher.exactly (us.map slash)).Means cs (us.map .unit) := by
  intro t plain'
  rw [fits_units plain plain' alone, Matcher.test, beq_iff_eq, iff_self_and]
  intro same
  have last : (t.map slash).getLast? = some ('*' : CodeUnit) := by
    rw [same, List.getLast?_map, ends]
    rfl
  constructor
  · rintro rfl
    simp at last
  · rw [← isDots_slashed]
    exact not_dots_of_ends last

theorem shape_means (unmixed : Unmixed signs) (ends : signs.getLast? ≠ some (.unit '.'))
    (single : ∃ sign ∈ signs, sign ≠ .many) :
    (Matcher.shape [signs.map Sign.piece] (unitwise cs) (startsOpen (signs.map Sign.piece))).Means
      cs signs := by
  intro t plain
  have nonempty : fits (unitwise cs) signs t = true → t ≠ [] := by
    rintro fit rfl
    obtain ⟨sign, listed, other⟩ := single
    exact other (fits_nil.mp fit sign listed)
  have opened : fits (unitwise cs) signs t = true → isDots t = true →
      startsOpen (signs.map Sign.piece) = true := fun fit dots => startsOpen_of_fits dots fit ends
  rw [Matcher.test]
  simp only [matchesAll_signs unmixed plain, isDots_slashed, List.any_nil, Bool.or_false]
  -- A matcher that is not guarded stands for no dot text anyway.
  cases dots : isDots t <;> cases fit : fits (unitwise cs) signs t <;> simp_all

theorem Mark.unit_of_sign {m : Mark} {u : CodeUnit} (isUnit : m.sign = .unit u) : m.unit = u := by
  simp only [Mark.sign] at isUnit
  split_ifs at isUnit <;> simp_all

theorem Mark.eq_of_many {m : Mark} (star : m.sign = .many) : m = ⟨'*', false⟩ := by
  obtain ⟨u, escaped⟩ := m
  simp only [Mark.sign] at star
  split_ifs at star
  simp_all

theorem alone_in_glob (uncased : cs = false → Text.upper (glob ms) = Text.lower (glob ms))
    {u : CodeUnit} (listed : u ∈ ms.map Mark.unit) {w : CodeUnit}
    (same : (unitwise cs).same (slash u).toNat w.toNat = true) : w = slash u := by
  rw [← UInt16.toNat_inj]
  cases cs with
  | true => exact (beq_iff_eq.mp same).symm
  | false =>
      obtain ⟨m, isMark, rfl⟩ := List.mem_map.mp listed
      have written : slash m.unit ∈ glob ms := List.mem_flatMap.mpr ⟨m, isMark, m.written.slash_mem⟩
      exact Text.alone_of_uncased (uncased rfl) written (beq_iff_eq.mp same).symm

theorem simple_means {matcher : Matcher} (isGlob : glob ms = g)
    (simple : Simple g (some matcher)) : matcher.Means cs (ms.map Mark.sign) := by
  rw [signs_of_bare isGlob simple.bare]
  cases simple with
  | stars n =>
      rw [map_starRun]
      exact anything_means n
  | dotted k n =>
      rw [List.map_append, List.map_cons, map_starRun, map_starRun]
      exact dotted_means k n
  | dotLed n =>
      rw [List.map_cons, map_starRun]
      exact dotLed_means n

theorem unmixed_signs (unmixed : slashStandIn ∉ ms.map Mark.unit) : Unmixed (ms.map Mark.sign) := by
  rintro u isUnit rfl
  obtain ⟨m, isMark, isSign⟩ := List.mem_map.mp isUnit
  exact unmixed (List.mem_map.mpr ⟨m, isMark, Mark.unit_of_sign isSign⟩)

theorem single_of_other {u : CodeUnit} (listed : u ∈ glob ms) (other : u ≠ '*') :
    ∃ sign ∈ ms.map Mark.sign, sign ≠ .many := by
  obtain ⟨m, isMark, isUnit⟩ := List.mem_flatMap.mp listed
  refine ⟨m.sign, List.mem_map_of_mem isMark, fun star => other ?_⟩
  rw [Mark.eq_of_many star] at isUnit
  exact List.mem_singleton.mp isUnit

/-- A glob whose last mark is a star compiles to what its signs mean. -/
theorem compileGlob_means {front : List Mark} {escaped : Bool}
    (starred : ms = front ++ [⟨'*', escaped⟩]) (legible : Legible ms)
    (unmixed : slashStandIn ∉ ms.map Mark.unit) (short : (glob ms).length ≤ maxGlobLength)
    (cs : Bool) :
    ∃ matcher, compileGlob (glob ms) cs = .ok matcher ∧ matcher.Means cs (ms.map Mark.sign) := by
  have ends : (glob ms).getLast? = some ('*' : CodeUnit) := by
    rw [starred, glob, List.flatMap_append, List.flatMap_singleton]
    cases escaped <;> simp [Mark.glob, toGlob.escaped, toGlob.plain]
  -- Two stars are compiled as one.
  by_cases stars : glob ms = Text.ofString "**"
  · refine ⟨.anything, ?_, simple_means stars (Simple.stars 1)⟩
    rw [stars]
    cases cs <;> rfl
  have nonempty : glob ms ≠ [] := by
    intro empty
    rw [empty] at ends
    simp at ends
  refine ⟨_, compileGlob_marks legible short nonempty stars cs, ?_⟩
  rw [not_dots_of_ends ends, Bool.not_false, Bool.and_true]
  cases literal : isLiteral ms cs with
  | true =>
      obtain ⟨tame, uncased⟩ := (isLiteral_iff ms cs).mp literal
      have last : (ms.map Mark.unit).getLast? = some ('*' : CodeUnit) := by simp [starred]
      rw [if_pos rfl, signs_of_tame tame, literalText_units]
      exact exactly_means unmixed last fun u listed w same => alone_in_glob uncased listed same
  | false =>
      rw [if_neg Bool.false_ne_true]
      have simple := simpleMatcher?_simple ends (!cs)
      cases found : simpleMatcher? (glob ms) (!cs) with
      | some matcher =>
          rw [found] at simple
          exact simple_means rfl simple
      | none =>
          rw [found] at simple
          obtain ⟨u, listed, other⟩ := simple.other
          have last : (ms.map Mark.sign).getLast? ≠ some (.unit '.') := by
            rw [starred]
            cases escaped <;> simp [Mark.sign]
          exact shape_means (unmixed_signs unmixed) last (single_of_other listed other)

end Matchers

theorem unit_mem_of_marks {p : Text} {m : Mark} (listed : m ∈ marks p) : m.unit ∈ p := by
  fun_induction marks p with
  | case1 => simp at listed
  | case2 u => rw [List.mem_singleton.mp listed]; exact List.mem_singleton.mpr rfl
  | case3 u v rest escape ih =>
      rcases List.mem_cons.mp listed with rfl | later
      · simp
      · simp [ih later]
  | case4 u v rest plain ih =>
      rcases List.mem_cons.mp listed with rfl | later
      · simp
      · simp [ih later]

/-- A pattern that ends in a star and has no bracket and no escaped bar matches the texts that it
stands for, save the empty text and the two dot texts. -/
theorem starred_pattern_matches (p : Text) (caseSensitive : Bool)
    (starred : p.getLast? = some ('*' : CodeUnit)) (bracketless : Mark.mk '[' false ∉ marks p)
    (barless : Mark.mk '|' true ∉ marks p) (short : (toGlob p).length ≤ maxGlobLength)
    (plain : slashStandIn ∉ p) :
    ∃ pattern, Pattern.compile p caseSensitive = .ok pattern ∧
      ∀ t : Text, slashStandIn ∉ t → (pattern.test t = true ↔
        standsFor p caseSensitive t = true ∧
          t ≠ [] ∧ t ≠ Text.ofString "." ∧ t ≠ Text.ofString "..") := by
  obtain ⟨front, escaped, split⟩ := marks_last starred
  have isPlain : ∀ m ∈ marks p, m.Plain := by
    intro m listed
    constructor
    · rintro rfl
      exact bracketless listed
    · rintro rfl
      exact barless listed
  have unmixed : slashStandIn ∉ (marks p).map Mark.unit := by
    intro listed
    obtain ⟨m, isMark, isUnit⟩ := List.mem_map.mp listed
    exact plain (isUnit ▸ unit_mem_of_marks isMark)
  rw [toGlob_eq] at short
  obtain ⟨matcher, compiled, means⟩ :=
    compileGlob_means split (legible_of_plain isPlain) unmixed short caseSensitive
  refine ⟨⟨p, matcher⟩, ?_, ?_⟩
  · rw [Pattern.compile, toGlob_eq, compiled]
    rfl
  · intro t isText
    rw [Pattern.test_eq, means t isText, Bool.eq_false_iff, Ne.eq_def (isDots t), isDots_iff, not_or]
    rfl

theorem escaped_star_pattern_matches :
    ∃ pattern, Pattern.compile "a/`*?*" = .ok pattern ∧
      pattern.test "A/*.b" = true ∧ pattern.test "a/.b" = false := by
  obtain ⟨pattern, compiled, matched⟩ :=
    starred_pattern_matches "a/`*?*" false (by decide +kernel) (by decide +kernel)
      (by decide +kernel) (by decide +kernel) (by decide +kernel)
  refine ⟨pattern, compiled, (matched _ (by decide +kernel)).mpr (by decide +kernel), ?_⟩
  rw [Bool.eq_false_iff]
  exact fun accepted => absurd ((matched _ (by decide +kernel)).mp accepted).1 (by decide +kernel)

theorem escaped_bar_is_a_choice :
    ¬∀ p t : Text, p.getLast? = some ('*' : CodeUnit) → Mark.mk '[' false ∉ marks p →
      (toGlob p).length ≤ maxGlobLength → slashStandIn ∉ p → slashStandIn ∉ t →
      ∃ pattern, Pattern.compile p = .ok pattern ∧ (pattern.test t = true ↔
        standsFor p false t = true ∧
          t ≠ [] ∧ t ≠ Text.ofString "." ∧ t ≠ Text.ofString "..") := by
  intro always
  obtain ⟨pattern, compiled, matched⟩ := always "x`|y*" "xz" (by decide +kernel)
    (by decide +kernel) (by decide +kernel) (by decide +kernel) (by decide +kernel)
  have known : ∃ pattern, Pattern.compile "x`|y*" = .ok pattern ∧ pattern.test "xz" = true :=
    ⟨_, rfl, by decide +kernel⟩
  obtain ⟨pattern', compiled', accepted⟩ := known
  rw [compiled, Except.ok.injEq] at compiled'
  rw [← compiled'] at accepted
  exact absurd (matched.mp accepted).1 (by decide +kernel)

end TabCompletion.Wildcard
