import Mathlib.Data.List.Find
import TabCompletion.Proofs.Wildcard.Starred

/-!
Compiling a glob that ends in a star, step by step. A step reads a class, an escape or a unit; what
it does is the same whether or not one star more follows, so one star more adds one piece at the
end, unless compiling stops before.
-/

namespace TabCompletion.Wildcard

/-! Classes. -/

section Classes

/-- A reading of a class after which more text follows. -/
def ClassReading.followedBy (more : Text) : ClassReading → ClassReading
  | .literal u rest => .literal u (rest ++ more)
  | .set members byPoints rest => .set members byPoints (rest ++ more)
  | reading => reading

/-- What a reading that closes a class has left over. -/
def ClassReading.rest? : ClassReading → Option Text
  | .literal _ rest | .set _ _ rest => some rest
  | _ => none

/-- What follows a class does not change how it is closed. -/
theorem close_cases (state : ClassState) :
    (∀ rest, state.close rest = .never) ∨ (∀ rest, state.close rest = .invalid) ∨
      (∃ u, ∀ rest, state.close rest = .literal u rest) ∨
      ∃ members byPoints, ∀ rest, state.close rest = .set members byPoints rest := by
  simp only [ClassState.close]
  split
  · split
    · exact Or.inl fun _ => rfl
    · exact Or.inr (Or.inr (Or.inr ⟨_, _, fun _ => rfl⟩))
  · split
    · split
      · exact Or.inr (Or.inr (Or.inr ⟨_, _, fun _ => rfl⟩))
      · exact Or.inr (Or.inl fun _ => rfl)
    · split
      · split
        · split
          · exact Or.inr (Or.inr (Or.inr ⟨_, _, fun _ => rfl⟩))
          · exact Or.inr (Or.inl fun _ => rfl)
        · exact Or.inr (Or.inr (Or.inl ⟨_, fun _ => rfl⟩))
      · split
        · exact Or.inr (Or.inr (Or.inr ⟨_, _, fun _ => rfl⟩))
        · exact Or.inr (Or.inl fun _ => rfl)
      · split
        · exact Or.inr (Or.inr (Or.inr ⟨_, _, fun _ => rfl⟩))
        · exact Or.inr (Or.inl fun _ => rfl)

theorem close_followedBy (state : ClassState) (rest more : Text) :
    state.close (rest ++ more) = (state.close rest).followedBy more := by
  rcases close_cases state with closed | closed | ⟨u, closed⟩ | ⟨members, byPoints, closed⟩
  all_goals
    rw [closed, closed]
    rfl

theorem close_rest {state : ClassState} {rest left : Text}
    (closes : (state.close rest).rest? = some left) : left = rest := by
  rcases close_cases state with closed | closed | ⟨u, closed⟩ | ⟨members, byPoints, closed⟩
  all_goals
    rw [closed] at closes
    cases closes
  all_goals rfl

theorem isPrefixOf_append_unit {name : Text} {x : CodeUnit} (absent : x ∉ name) (t : Text) :
    name.isPrefixOf (t ++ [x]) = name.isPrefixOf t := by
  induction name generalizing t with
  | nil => simp
  | cons u more ih =>
      rw [List.mem_cons, not_or] at absent
      cases t with
      | nil =>
          rw [List.nil_append, List.isPrefixOf_cons_cons, beq_false_of_ne (Ne.symm absent.1)]
          rfl
      | cons w rest =>
          rw [List.cons_append, List.isPrefixOf_cons_cons, List.isPrefixOf_cons_cons, ih absent.2]

theorem namedClasses_starless :
    ∀ named ∈ namedClasses, ('*' : CodeUnit) ∉ named.name ∧ named.name ≠ [] := by
  decide

theorem find_named_star (t : Text) :
    namedClasses.find? (·.name.isPrefixOf (t ++ [('*' : CodeUnit)])) =
      namedClasses.find? (·.name.isPrefixOf t) :=
  List.find?_congr fun named listed =>
    isPrefixOf_append_unit (namedClasses_starless named listed).1 t

theorem drop_one_append {head : CodeUnit} {rest : Text} (starts : Text.startsWith rest [head] = true)
    (more : Text) : (rest ++ more).drop 1 = rest.drop 1 ++ more := by
  obtain ⟨others, rfl⟩ := startsWith_iff.mp starts
  rfl

theorem named_of_find {escaping : Bool} {u : CodeUnit} {t : Text} {named : NamedClass}
    (found : (if u == '[' && !escaping then namedClasses.find? (·.name.isPrefixOf t) else none) =
      some named) : named.name <+: t ∧ 0 < named.name.length := by
  split at found
  · have isPrefix := List.find?_some found
    have listed := List.mem_of_find?_eq_some found
    exact ⟨List.isPrefixOf_iff_prefix.mp isPrefix,
      List.length_pos_iff.mpr (namedClasses_starless named listed).2⟩
  · cases found

theorem read_nil (fuel : Nat) (atStart : Bool) (state : ClassState) :
    ClassState.read fuel atStart state [] = .unclosed := by
  cases fuel <;> rfl

theorem read_lone_star (fuel : Nat) (atStart : Bool) (state : ClassState) :
    ClassState.read fuel atStart state [('*' : CodeUnit)] = .unclosed := by
  have notClosing : ((('*' : CodeUnit) == ']')) = false := by decide
  have notEscape : ((('*' : CodeUnit) == '\\')) = false := by decide
  have notBracket : ((('*' : CodeUnit) == '[')) = false := by decide
  cases fuel with
  | zero => rfl
  | succ fuel =>
      rw [ClassState.read]
      simp only [notClosing, notEscape, notBracket, Bool.false_and, Bool.false_eq_true, if_false]
      cases state.rangeStart with
      | some low => exact read_nil _ _ _
      | none => exact read_nil _ _ _

/-- One star more behind a class is left over with the rest. -/
theorem read_star {fuel fuel' : Nat} {t : Text} (enough : t.length < fuel)
    (enough' : t.length + 1 < fuel') (atStart : Bool) (state : ClassState) :
    ClassState.read fuel' atStart state (t ++ [('*' : CodeUnit)]) =
      (ClassState.read fuel atStart state t).followedBy [('*' : CodeUnit)] := by
  -- The induction is on the fuel; with the star there is one unit and one step more.
  induction fuel generalizing fuel' t atStart state with
  | zero => omega
  | succ fuel ih =>
      obtain ⟨fuel', rfl⟩ : ∃ more, fuel' = more + 1 := ⟨fuel' - 1, by omega⟩
      cases t with
      | nil => exact read_lone_star _ _ _
      | cons u rest =>
          rw [List.length_cons] at enough enough'
          rw [List.cons_append, ClassState.read, ClassState.read]
          split
          · exact close_followedBy state rest _
          split
          · exact ih (by omega) (by omega) _ _
          rw [← List.cons_append]
          simp only [find_named_star]
          cases found : (if u == '[' && !state.escaping then
            namedClasses.find? (·.name.isPrefixOf (u :: rest)) else none) with
          | some named =>
              obtain ⟨isPrefix, nonempty⟩ := named_of_find found
              cases state.rangeStart with
              | some low => rfl
              | none =>
                  simp only
                  rw [List.drop_append_of_le_length isPrefix.length_le]
                  have shorter : ((u :: rest).drop named.name.length).length ≤ rest.length := by
                    rw [List.length_drop, List.length_cons]
                    omega
                  exact ih (by omega) (by omega) _ _
          | none =>
              cases state.rangeStart with
              | some low => exact ih (by omega) (by omega) _ _
              | none =>
                  have shorter : (rest.drop 1).length ≤ rest.length := by simp
                  have closing : Text.startsWith (rest ++ [('*' : CodeUnit)]) "-]" =
                      Text.startsWith rest "-]" := isPrefixOf_append_unit (by decide) rest
                  have dash : Text.startsWith (rest ++ [('*' : CodeUnit)]) "-" =
                      Text.startsWith rest "-" := isPrefixOf_append_unit (by decide) rest
                  simp only [closing, dash]
                  -- A dash is read with what follows it, where the star changes nothing.
                  split
                  next isClosing =>
                    have starts : Text.startsWith rest "-" = true := by
                      obtain ⟨others, rfl⟩ := List.isPrefixOf_iff_prefix.mp isClosing
                      rfl
                    rw [drop_one_append starts]
                    exact ih (by omega) (by omega) _ _
                  split
                  next starts =>
                    rw [drop_one_append starts]
                    exact ih (by omega) (by omega) _ _
                  · exact ih (by omega) (by omega) _ _

/-- A class ends with its closing bracket. -/
theorem read_rest {fuel : Nat} {atStart : Bool} {state : ClassState} {t left : Text}
    (closes : (ClassState.read fuel atStart state t).rest? = some left) :
    (']' : CodeUnit) :: left <:+ t := by
  induction fuel generalizing atStart state t with
  | zero => cases closes
  | succ fuel ih =>
      cases t with
      | nil => cases closes
      | cons u rest =>
          have further : ∀ {atStart : Bool} {state : ClassState} {shorter : Text},
              shorter <:+ u :: rest →
              (ClassState.read fuel atStart state shorter).rest? = some left →
              (']' : CodeUnit) :: left <:+ u :: rest :=
            fun isSuffix later => (ih later).trans isSuffix
          have isTail : rest <:+ u :: rest := List.suffix_cons u rest
          rw [ClassState.read] at closes
          split at closes
          next isClosing =>
            simp only [Bool.and_eq_true, beq_iff_eq] at isClosing
            rw [close_rest closes, isClosing.1.1]
          split at closes
          · exact further isTail closes
          simp only at closes
          split at closes
          · cases closes
          · exact further (List.drop_suffix _ _) closes
          · exact further isTail closes
          · split at closes
            · exact further ((List.drop_suffix 1 rest).trans isTail) closes
            split at closes
            · exact further ((List.drop_suffix 1 rest).trans isTail) closes
            · exact further isTail closes

theorem readClass_star (t : Text) :
    readClass (t ++ [('*' : CodeUnit)]) = (readClass t).followedBy [('*' : CodeUnit)] := by
  cases t with
  | nil => exact read_lone_star _ _ _
  | cons u rest =>
      rw [List.cons_append, readClass, readClass]
      split
      · exact read_star (by rw [List.length_cons]; omega) (by simp) _ _
      · rw [← List.cons_append]
        exact read_star (by simp) (by simp) _ _

theorem readClass_rest {t left : Text} (closes : (readClass t).rest? = some left) :
    (']' : CodeUnit) :: left <:+ t := by
  cases t with
  | nil => cases closes
  | cons u rest =>
      rw [readClass] at closes
      split at closes
      · exact (read_rest closes).trans (List.suffix_cons u rest)
      · exact read_rest closes

end Classes

/-! Compiling step by step. -/

section Steps

/-- The text is empty or ends in a star. -/
def EndsInStar (g : Text) : Prop := ∀ u, g.getLast? = some u → u = '*'

theorem EndsInStar.suffix {g rest : Text} (ends : EndsInStar g) (isSuffix : rest <:+ g) :
    EndsInStar rest := by
  obtain ⟨front, rfl⟩ := isSuffix
  intro u isLast
  have nonempty : rest ≠ [] := by
    rintro rfl
    cases isLast
  exact ends u (by rw [List.getLast?_append_of_ne_nil _ nonempty, isLast])

theorem EndsInStar.last {u : CodeUnit} (ends : EndsInStar [u]) : u = '*' := ends u rfl

/-- A state in which compiling has stopped before the end of the pattern. -/
inductive Compilation.Stopped (state : Compilation) : Compilation → Prop
  | never : Stopped state ({ state with wild := true }.push .never)
  | invalid : Stopped state { state with wild := true, invalid := true }

/-- What one step of compiling does: it ends an alternative or adds a piece to it. -/
inductive Compilation.Stepped (state : Compilation) : Compilation → Prop
  | bar :
      Stepped state { state with finished := state.pieces.reverse :: state.finished, pieces := [] }
  | literal (u : CodeUnit) (unitEscape : Bool) :
      Stepped state { state with pieces := .literal u.toNat :: state.pieces, unitEscape }
  | wild (piece : Piece) (byPoints : Bool) :
      Stepped state { state with pieces := piece :: state.pieces, wild := true, byPoints }

/-- The last piece is a star, one that stands for any text or one that is escaped. -/
def Compilation.StarLast (state : Compilation) : Prop :=
  state.wild = true ∧ state.pieces.head? = some .anyMany ∨
    state.pieces.head? = some (.literal ('*' : CodeUnit).toNat)

/-- A step of compiling, the same whether or not one star more follows. -/
structure Compilation.Goes (state : Compilation) (u : CodeUnit) (rest : Text) (next : Compilation)
    (left : Text) : Prop where
  stepped : state.Stepped next
  shorter : left <:+ rest
  starLast : left = [] → next.StarLast
  runs : ∀ fuel, Compilation.run (fuel + 1) state (u :: rest) = Compilation.run fuel next left
  runsStarred : ∀ fuel, Compilation.run (fuel + 1) state (u :: rest ++ [('*' : CodeUnit)]) =
    Compilation.run fuel next (left ++ [('*' : CodeUnit)])

/-- How compiling goes on behind a bracket, by what was read as a class. -/
def Compilation.bracketed (state : Compilation) (fuel : Nat) (rest : Text) :
    ClassReading → Compilation
  | .unclosed => Compilation.run fuel (state.push (.literal ('[' : CodeUnit).toNat)) rest
  | .never => { state with wild := true }.push .never
  | .invalid => { state with wild := true, invalid := true }
  | .literal v left =>
      Compilation.run fuel ({ state with unitEscape := state.unitEscape || isLooseEscape v }.push
        (.literal v.toNat)) left
  | .set members byPoints left =>
      Compilation.run fuel ({ state with wild := true, byPoints := state.byPoints || byPoints }.push
        (.oneOf members)) left

theorem run_bracket (fuel : Nat) (state : Compilation) (rest : Text) :
    Compilation.run (fuel + 1) state (('[' : CodeUnit) :: rest) =
      state.bracketed fuel rest (readClass rest) := rfl

theorem run_bracket_star (fuel : Nat) (state : Compilation) (rest : Text) :
    Compilation.run (fuel + 1) state (('[' : CodeUnit) :: rest ++ [('*' : CodeUnit)]) =
      state.bracketed fuel (rest ++ [('*' : CodeUnit)])
        ((readClass rest).followedBy [('*' : CodeUnit)]) := by
  rw [List.cons_append, run_bracket, readClass_star]

/-- The steps of an escape: it ends an alternative or stands for a unit. -/
theorem run_step_escape {rest : Text} (ends : EndsInStar (('\\' : CodeUnit) :: rest))
    (state : Compilation) : ∃ next left, state.Goes '\\' rest next left := by
  cases rest with
  | nil => exact absurd ends.last (by decide)
  | cons v rest =>
      have shorter : rest <:+ v :: rest := List.suffix_cons v rest
      by_cases bar : v = '|'
      · subst bar
        refine ⟨_, rest, .bar, shorter, ?_, fun _ => rfl, fun _ => rfl⟩
        rintro rfl
        exact absurd (ends.suffix (List.suffix_cons _ _)).last (by decide)
      · refine ⟨_, rest, .literal v _, shorter, ?_, fun fuel => run_behind bar fuel state rest,
          fun fuel => run_behind bar fuel state _⟩
        rintro rfl
        rw [(ends.suffix (List.suffix_cons _ _)).last]
        exact Or.inr rfl

theorem goes_bracket {state next : Compilation} {rest left : Text} {reading : ClassReading}
    (read : readClass rest = reading) (stepped : state.Stepped next) (shorter : left <:+ rest)
    (starLast : left = [] → next.StarLast)
    (runs : ∀ fuel, state.bracketed fuel rest reading = Compilation.run fuel next left)
    (runsStarred : ∀ fuel, state.bracketed fuel (rest ++ [('*' : CodeUnit)])
        (reading.followedBy [('*' : CodeUnit)]) =
      Compilation.run fuel next (left ++ [('*' : CodeUnit)])) :
    state.Goes '[' rest next left := by
  subst read
  refine ⟨stepped, shorter, starLast, runs, fun fuel => ?_⟩
  rw [run_bracket_star, runsStarred]

/-- The steps of a bracket: it is ordinary, or a class is compiled, or compiling stops. -/
theorem run_step_bracket {rest : Text} (ends : EndsInStar (('[' : CodeUnit) :: rest))
    (state : Compilation) :
    (∃ final, state.Stopped final ∧
      (∀ fuel, Compilation.run (fuel + 1) state (('[' : CodeUnit) :: rest) = final) ∧
      ∀ fuel, Compilation.run (fuel + 1) state (('[' : CodeUnit) :: rest ++ [('*' : CodeUnit)]) =
        final) ∨
    ∃ next left, state.Goes '[' rest next left := by
  have unfinished : ∀ left, (readClass rest).rest? = some left → left <:+ rest ∧ left ≠ [] := by
    intro left closes
    have isSuffix := readClass_rest closes
    refine ⟨(List.suffix_cons _ _).trans isSuffix, ?_⟩
    rintro rfl
    exact absurd (ends.suffix (isSuffix.trans (List.suffix_cons _ _))).last (by decide)
  simp only [run_bracket, run_bracket_star]
  cases read : readClass rest with
  | unclosed =>
      refine Or.inr ⟨_, rest, goes_bracket read (.literal '[' state.unitEscape)
        (List.suffix_refl rest) ?_ (fun _ => rfl) (fun _ => rfl)⟩
      rintro rfl
      exact absurd ends.last (by decide)
  | never => exact Or.inl ⟨_, .never, fun _ => rfl, fun _ => rfl⟩
  | invalid => exact Or.inl ⟨_, .invalid, fun _ => rfl, fun _ => rfl⟩
  | literal v left =>
      obtain ⟨shorter, nonempty⟩ := unfinished left (by rw [read]; rfl)
      exact Or.inr ⟨_, left, goes_bracket read (.literal v (state.unitEscape || isLooseEscape v))
        shorter (fun isEmpty => absurd isEmpty nonempty) (fun _ => rfl) (fun _ => rfl)⟩
  | set members byPoints left =>
      obtain ⟨shorter, nonempty⟩ := unfinished left (by rw [read]; rfl)
      exact Or.inr ⟨_, left, goes_bracket read (.wild (.oneOf members) (state.byPoints || byPoints))
        shorter (fun isEmpty => absurd isEmpty nonempty) (fun _ => rfl) (fun _ => rfl)⟩

theorem run_step {u : CodeUnit} {rest : Text} (ends : EndsInStar (u :: rest))
    (state : Compilation) :
    (∃ final, state.Stopped final ∧
      (∀ fuel, Compilation.run (fuel + 1) state (u :: rest) = final) ∧
      ∀ fuel, Compilation.run (fuel + 1) state (u :: rest ++ [('*' : CodeUnit)]) = final) ∨
    ∃ next left, state.Goes u rest next left := by
  by_cases escape : u = '\\'
  · subst escape
    exact Or.inr (run_step_escape ends state)
  by_cases bracket : u = '['
  · subst bracket
    exact run_step_bracket ends state
  refine Or.inr ?_
  have whole : rest <:+ rest := List.suffix_refl rest
  by_cases star : u = '*'
  · subst star
    exact ⟨_, rest, .wild .anyMany state.byPoints, whole, fun _ => Or.inl ⟨rfl, rfl⟩,
      fun _ => rfl, fun _ => rfl⟩
  have notLast : rest = [] → False := by
    rintro rfl
    exact star ends.last
  by_cases question : u = '?'
  · subst question
    exact ⟨_, rest, .wild .anyOne state.byPoints, whole, fun isEmpty => (notLast isEmpty).elim,
      fun _ => rfl, fun _ => rfl⟩
  have ordinary : u ∉ (['\\', '[', '*', '?'] : Text) := by
    simp only [List.mem_cons, List.not_mem_nil, or_false, not_or]
    exact ⟨escape, bracket, star, question⟩
  exact ⟨_, rest, .literal u (state.unitEscape || isLooseEscape u), whole,
    fun isEmpty => (notLast isEmpty).elim, fun fuel => run_ordinary ordinary fuel state rest,
    fun fuel => run_ordinary ordinary fuel state _⟩

/-- Compiling stopped before the end of the pattern. -/
def Compilation.Cut (state : Compilation) : Prop :=
  state.wild = true ∧ (state.invalid = true ∨ state.pieces.head? = some .never)

theorem Compilation.Stopped.cut {state final : Compilation} (stopped : state.Stopped final) :
    final.Cut := by
  cases stopped with
  | never => exact ⟨rfl, Or.inr rfl⟩
  | invalid => exact ⟨rfl, Or.inl rfl⟩

/-- The state with a star behind the last piece. -/
def Compilation.starred (state : Compilation) : Compilation :=
  { state with wild := true, pieces := .anyMany :: state.pieces }

/-- One star more adds one piece, unless compiling stops before. -/
theorem run_star {fuel fuel' : Nat} {g : Text} {state : Compilation} (enough : g.length < fuel)
    (enough' : g.length + 1 < fuel') (ends : EndsInStar g) (start : g = [] → state.StarLast) :
    Compilation.run fuel' state (g ++ [('*' : CodeUnit)]) = Compilation.run fuel state g ∧
        (Compilation.run fuel state g).Cut ∨
      Compilation.run fuel' state (g ++ [('*' : CodeUnit)]) =
          (Compilation.run fuel state g).starred ∧
        (Compilation.run fuel state g).StarLast := by
  induction fuel generalizing fuel' g state with
  | zero => omega
  | succ fuel ih =>
      obtain ⟨fuel', rfl⟩ : ∃ more, fuel' = more + 1 := ⟨fuel' - 1, by omega⟩
      cases g with
      | nil =>
          cases fuel' with
          | zero => simp at enough'
          | succ fuel' => exact Or.inr ⟨rfl, start rfl⟩
      | cons u rest =>
          rw [List.length_cons] at enough enough'
          rcases run_step ends state with ⟨final, stopped, runs, runsStarred⟩ | ⟨next, left, goes⟩
          · rw [runs, runsStarred]
            exact Or.inl ⟨rfl, stopped.cut⟩
          · have shorter := goes.shorter.length_le
            rw [goes.runs, goes.runsStarred]
            exact ih (by omega) (by omega)
              (ends.suffix (goes.shorter.trans (List.suffix_cons u rest))) goes.starLast

/-- Without wildcards there are only literal pieces. -/
def Compilation.Quiet (state : Compilation) : Prop :=
  state.wild = false → state.invalid = false ∧ state.byPoints = false ∧
    ∀ alternative ∈ state.pieces :: state.finished, ∀ piece ∈ alternative,
      ∃ u : CodeUnit, piece = .literal u.toNat

theorem Compilation.Stepped.quiet {state next : Compilation} (stepped : state.Stepped next)
    (quiet : state.Quiet) : next.Quiet := by
  intro tame
  cases stepped with
  | bar =>
      obtain ⟨valid, byUnits, literal⟩ := quiet tame
      refine ⟨valid, byUnits, ?_⟩
      simp only [List.mem_cons, forall_eq_or_imp, List.not_mem_nil, List.mem_reverse] at literal ⊢
      exact ⟨fun _ impossible => impossible.elim, literal⟩
  | literal u unitEscape =>
      obtain ⟨valid, byUnits, literal⟩ := quiet tame
      refine ⟨valid, byUnits, ?_⟩
      simp only [List.mem_cons, forall_eq_or_imp] at literal ⊢
      exact ⟨⟨⟨u, rfl⟩, literal.1⟩, literal.2⟩
  | wild piece byPoints => cases tame

theorem run_quiet {fuel : Nat} {g : Text} {state : Compilation} (ends : EndsInStar g)
    (quiet : state.Quiet) : (Compilation.run fuel state g).Quiet := by
  induction fuel generalizing g state with
  | zero => exact quiet
  | succ fuel ih =>
      cases g with
      | nil => exact quiet
      | cons u rest =>
          rcases run_step ends state with ⟨final, stopped, runs, -⟩ | ⟨next, left, goes⟩
          · rw [runs]
            intro tame
            rw [stopped.cut.1] at tame
            cases tame
          · rw [goes.runs]
            exact ih (ends.suffix (goes.shorter.trans (List.suffix_cons u rest)))
              (goes.stepped.quiet quiet)

end Steps

end TabCompletion.Wildcard
