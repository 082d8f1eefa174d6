import TabCompletion.Proofs.Wildcard.Compiling

/-!
Where a bracket expression ends. Reading a class goes on unit by unit and looks ahead only for a
dash and for the name of a class, so once it has ended it has not looked at what follows: a class
that is read to its end is read alike whatever stands behind it.
-/

namespace TabCompletion.Wildcard

/-- What one step of reading a class does: it ends the reading or goes on with the rest. -/
inductive ClassStep where
  | done (reading : ClassReading)
  | next (state : ClassState) (left : Text)

namespace ClassStep

def goOn (fuel : Nat) : ClassStep → ClassReading
  | .done reading => reading
  | .next state left => ClassState.read fuel false state left

def followedBy (more : Text) : ClassStep → ClassStep
  | .done reading => .done (reading.followedBy more)
  | .next state left => .next state (left ++ more)

end ClassStep

namespace ClassState

/-- A unit that does not close the class and is not the name of one: it ends a range, or begins
one, or is listed. -/
def list (state : ClassState) (u : CodeUnit) (rest : Text) : ClassStep :=
  match state.rangeStart with
  | some low =>
      let elements := if low < u then .span low u :: state.elements
        else if low == u then .unit u :: state.elements
        else state.elements
      .next { state with elements, rangeStart := none, escaping := false } rest
  | none =>
      let state := { state with escaping := false }
      if Text.startsWith rest "-]" then
        .next { state with elements := .unitAndDash u :: state.elements } (rest.drop 1)
      else if Text.startsWith rest "-" then .next { state with rangeStart := some u } (rest.drop 1)
      else .next { state with elements := .unit u :: state.elements } rest

/-- The name of a class, which cannot end a range. -/
def name (state : ClassState) (named : NamedClass) (t : Text) : ClassStep :=
  match state.rangeStart with
  | some _ => .done .never
  | none =>
      let state := { state with byPoints := state.byPoints || named.byPoints }
      .next (if named.excludes then { state with excluded := state.excluded ++ named.members }
        else { state with elements := .named named.members :: state.elements })
        (t.drop named.name.length)

def named? (state : ClassState) (t : Text) : Option NamedClass :=
  if t.head? == some ('[' : CodeUnit) && !state.escaping then
    namedClasses.find? (·.name.isPrefixOf t) else none

def step (state : ClassState) (atStart : Bool) (u : CodeUnit) (rest : Text) : ClassStep :=
  if u == ']' && !atStart && !state.escaping then .done (state.close rest)
  else if u == '\\' && !state.escaping then .next { state with escaping := true } rest
  else match state.named? (u :: rest) with
    | some named => state.name named (u :: rest)
    | none => state.list u rest

end ClassState

section Steps

theorem read_succ (fuel : Nat) (atStart : Bool) (state : ClassState) (u : CodeUnit) (rest : Text) :
    ClassState.read (fuel + 1) atStart state (u :: rest) =
      (state.step atStart u rest).goOn fuel := by
  rw [ClassState.read, ClassState.step]
  split
  · rfl
  split
  · rfl
  · have head : ((u :: rest).head? == some ('[' : CodeUnit)) = (u == '[') := rfl
    rw [ClassState.named?, head]
    dsimp only
    generalize (if (u == '[' && !state.escaping) = true then
      namedClasses.find? (·.name.isPrefixOf (u :: rest)) else none) = named
    cases named with
    | some named =>
        simp only [ClassState.name]
        cases state.rangeStart <;> rfl
    | none =>
        simp only [ClassState.list]
        cases state.rangeStart with
        | some low => rfl
        | none =>
            dsimp only
            split
            · rfl
            · split <;> rfl

variable {atStart : Bool} {state : ClassState} {u : CodeUnit} {rest t more : Text}
  {named : NamedClass}

theorem namedClasses_closed : ∀ named ∈ namedClasses,
    named.name.getLast? = some (']' : CodeUnit) ∧ (']' : CodeUnit) ∉ named.name.dropLast := by
  decide

theorem bracket_of_named (found : state.named? t = some named) :
    t.head? = some ('[' : CodeUnit) ∧ named ∈ namedClasses ∧ named.name <+: t := by
  rw [ClassState.named?] at found
  split at found
  next bracket =>
    have isPrefix := List.find?_some found
    rw [Bool.and_eq_true, beq_iff_eq] at bracket
    exact ⟨bracket.1, List.mem_of_find?_eq_some found, List.isPrefixOf_iff_prefix.mp isPrefix⟩
  · cases found

/-- The name of a class ends in a bracket that closes it. -/
theorem closing_of_named (found : state.named? (u :: rest) = some named) :
    (']' : CodeUnit) ∈ rest := by
  obtain ⟨bracket, listed, isPrefix⟩ := bracket_of_named found
  have closing := isPrefix.subset (List.mem_of_getLast? (namedClasses_closed named listed).1)
  rw [List.head?_cons, Option.some.injEq] at bracket
  subst bracket
  exact (List.mem_cons.mp closing).resolve_left (by decide)

/-- All that a step can do. -/
theorem step_cases (state : ClassState) (atStart : Bool) (u : CodeUnit) (rest : Text) :
    (u = ']' ∧ ∀ rest, state.step atStart u rest = .done (state.close rest)) ∨
      ((']' : CodeUnit) ∈ rest ∧ state.step atStart u rest = .done .never) ∨
      ∃ next left, state.step atStart u rest = .next next left ∧ left <:+ rest := by
  by_cases closes : (u == ']' && !atStart && !state.escaping) = true
  · refine Or.inl ⟨?_, fun rest => by rw [ClassState.step, if_pos closes]⟩
    simp only [Bool.and_eq_true, beq_iff_eq] at closes
    exact closes.1.1
  rw [ClassState.step, if_neg closes]
  refine Or.inr ?_
  split
  · exact Or.inr ⟨_, _, rfl, List.suffix_refl rest⟩
  split
  next named found =>
    rw [ClassState.name]
    split
    · exact Or.inl ⟨closing_of_named found, rfl⟩
    · have shorter : (u :: rest).drop named.name.length <:+ rest := by
        have positive : named.name ≠ [] :=
          (namedClasses_starless named (bracket_of_named found).2.1).2
        obtain ⟨length, isLength⟩ := Nat.exists_eq_succ_of_ne_zero
          (Nat.ne_of_gt (List.length_pos_iff.mpr positive))
        rw [isLength, List.drop_succ_cons]
        exact List.drop_suffix _ _
      exact Or.inr ⟨_, _, rfl, shorter⟩
  next =>
    refine Or.inr ?_
    rw [ClassState.list]
    split
    · exact ⟨_, _, rfl, List.suffix_refl rest⟩
    · dsimp only
      split
      · exact ⟨_, _, rfl, List.drop_suffix 1 rest⟩
      · split
        · exact ⟨_, _, rfl, List.drop_suffix 1 rest⟩
        · exact ⟨_, _, rfl, List.suffix_refl rest⟩

/-- A name that ends in a closing bracket is found in a text that holds one, or not at all. -/
theorem isPrefixOf_append_closing {name : Text} (unclosed : (']' : CodeUnit) ∉ name.dropLast)
    (closing : (']' : CodeUnit) ∈ t) (more : Text) :
    name.isPrefixOf (t ++ more) = name.isPrefixOf t := by
  rw [Bool.eq_iff_iff, List.isPrefixOf_iff_prefix, List.isPrefixOf_iff_prefix]
  constructor
  · intro isPrefix
    by_contra beyond
    have inside : t <+: name.dropLast := by
      have short : t.length < name.length := by
        by_contra long
        exact beyond (List.prefix_of_prefix_length_le isPrefix (List.prefix_append t more)
          (Nat.le_of_not_lt long))
      refine List.prefix_of_prefix_length_le (List.prefix_append t more)
        ((List.dropLast_prefix name).trans isPrefix) ?_
      rw [List.length_dropLast]
      omega
    exact absurd (inside.subset closing) unclosed
  · exact fun isPrefix => isPrefix.trans (List.prefix_append t more)

theorem named?_append (closing : (']' : CodeUnit) ∈ t) (more : Text) :
    state.named? (t ++ more) = state.named? t := by
  have filled : t ≠ [] := List.ne_nil_of_mem closing
  rw [ClassState.named?, ClassState.named?, List.head?_append_of_ne_nil _ filled]
  congr 1
  exact List.find?_congr fun named listed =>
    isPrefixOf_append_closing (namedClasses_closed named listed).2 closing more

theorem startsWith_append {head : Text} (long : head.length ≤ t.length) (more : Text) :
    Text.startsWith (t ++ more) head = Text.startsWith t head := by
  rw [Text.startsWith, Text.startsWith, Bool.eq_iff_iff, List.isPrefixOf_iff_prefix,
    List.isPrefixOf_iff_prefix]
  constructor
  · exact fun isPrefix => List.prefix_of_prefix_length_le isPrefix (List.prefix_append t more) long
  · exact fun isPrefix => isPrefix.trans (List.prefix_append t more)

theorem list_append (closing : (']' : CodeUnit) ∈ rest) (more : Text) :
    state.list u (rest ++ more) = (state.list u rest).followedBy more := by
  cases rest with
  | nil => cases closing
  | cons v others =>
      have dash : Text.startsWith (v :: others ++ more) "-" = Text.startsWith (v :: others) "-" :=
        startsWith_append (by simp [Text.ofString, Text.unitsOfPoint]) more
      have dashClosing :
          Text.startsWith (v :: others ++ more) "-]" = Text.startsWith (v :: others) "-]" := by
        cases others with
        | nil =>
            rw [← List.mem_singleton.mp closing]
            rfl
        | cons w others => exact startsWith_append (by simp [Text.ofString, Text.unitsOfPoint]) more
      rw [ClassState.list, ClassState.list]
      split
      · rfl
      · simp only [dash, dashClosing]
        split
        · rfl
        · split <;> rfl

theorem step_append (closing : (']' : CodeUnit) ∈ rest) (more : Text) :
    state.step atStart u (rest ++ more) = (state.step atStart u rest).followedBy more := by
  rw [ClassState.step, ClassState.step]
  split
  · rw [ClassStep.followedBy, close_followedBy]
  split
  · rfl
  rw [← List.cons_append, named?_append (List.mem_cons_of_mem u closing)]
  split
  next named found =>
    rw [ClassState.name, ClassState.name]
    split
    · rfl
    · rw [List.drop_append_of_le_length (bracket_of_named found).2.2.length_le]
      rfl
  · exact list_append closing more

end Steps

section Reading

variable {fuel fuel' : Nat} {atStart : Bool} {state : ClassState} {t : Text}

/-- Without a closing bracket nothing is closed. -/
theorem read_unclosed (absent : (']' : CodeUnit) ∉ t) :
    ClassState.read fuel atStart state t = .unclosed := by
  induction fuel generalizing atStart state t with
  | zero => rfl
  | succ fuel ih =>
      cases t with
      | nil => rfl
      | cons u rest =>
          rw [List.mem_cons, not_or] at absent
          rw [read_succ]
          rcases step_cases state atStart u rest with ⟨closes, -⟩ | ⟨closing, -⟩ |
            ⟨next, left, stepped, shorter⟩
          · exact absurd closes.symm absent.1
          · exact absurd closing absent.2
          · rw [stepped]
            exact ih fun later => absent.2 (shorter.subset later)

/-- A reading that has ended does not depend on what follows. -/
theorem read_append (ended : ClassState.read fuel atStart state t ≠ .unclosed)
    (enough : fuel ≤ fuel') (more : Text) :
    ClassState.read fuel' atStart state (t ++ more) =
      (ClassState.read fuel atStart state t).followedBy more := by
  induction fuel generalizing fuel' atStart state t with
  | zero => exact absurd rfl ended
  | succ fuel ih =>
      obtain ⟨fuel', rfl⟩ : ∃ others, fuel' = others + 1 := ⟨fuel' - 1, by omega⟩
      cases t with
      | nil => exact absurd rfl ended
      | cons u rest =>
          rw [read_succ] at ended ⊢
          rw [List.cons_append, read_succ]
          by_cases closing : (']' : CodeUnit) ∈ rest
          · rw [step_append closing]
            cases stepped : state.step atStart u rest with
            | done reading => rfl
            | next next left =>
                rw [stepped] at ended
                exact ih ended (Nat.le_of_succ_le_succ enough)
          · -- Only a step that closes the class can end it here.
            rcases step_cases state atStart u rest with ⟨-, closes⟩ | ⟨later, -⟩ |
              ⟨next, left, stepped, shorter⟩
            · rw [closes, closes]
              exact close_followedBy state rest more
            · exact absurd later closing
            · rw [stepped] at ended
              exact absurd (read_unclosed fun later => closing (shorter.subset later)) ended

theorem readClass_append (ended : readClass t ≠ .unclosed) (more : Text) :
    readClass (t ++ more) = (readClass t).followedBy more := by
  cases t with
  | nil => exact absurd rfl ended
  | cons u rest =>
      rw [readClass] at ended
      rw [List.cons_append, readClass, readClass]
      split at ended
      next negated =>
        rw [if_pos negated, if_pos negated]
        exact read_append ended (by simp) more
      next plain =>
        rw [if_neg plain, if_neg plain, ← List.cons_append]
        exact read_append ended (by simp) more

end Reading

section Units

variable {fuel : Nat} {atStart : Bool} {state next : ClassState} {u v : CodeUnit}
  {t rest left whole : Text}

/-- Every unit that the class lists by itself is one of the text. -/
def ClassState.Lists (state : ClassState) (whole : Text) : Prop :=
  ∀ v, .unit v ∈ state.elements → v ∈ whole

theorem list_lists (lists : state.Lists whole) (listed : u ∈ whole)
    (stepped : state.list u rest = .next next left) : next.Lists whole := by
  have further : ∀ element, (∀ v, element = .unit v → v = u) →
      ∀ v, .unit v ∈ element :: state.elements → v ∈ whole := by
    intro element isUnit v later
    rcases List.mem_cons.mp later with here | before
    · rw [isUnit v here.symm]
      exact listed
    · exact lists v before
  rw [ClassState.list] at stepped
  split at stepped
  · cases stepped
    dsimp only [ClassState.Lists]
    split
    · exact further _ (by simp)
    · split
      · exact further _ (by simp)
      · exact lists
  · dsimp only at stepped
    split at stepped
    · cases stepped
      exact further _ (by simp)
    · split at stepped
      · cases stepped
        exact lists
      · cases stepped
        exact further _ (by simp)

theorem step_lists (lists : state.Lists whole) (listed : u ∈ whole)
    (stepped : state.step atStart u rest = .next next left) : next.Lists whole := by
  rw [ClassState.step] at stepped
  split at stepped
  · cases stepped
  split at stepped
  · cases stepped
    exact lists
  split at stepped
  next named found =>
    rw [ClassState.name] at stepped
    split at stepped
    · cases stepped
    · cases stepped
      split
      · exact lists
      · intro v later
        exact lists v ((List.mem_cons.mp later).resolve_left (by simp))
  · exact list_lists lists listed stepped

theorem close_literal (closes : state.close rest = .literal u left) : .unit u ∈ state.elements := by
  rw [← List.mem_reverse]
  simp only [ClassState.close] at closes
  split at closes
  · split at closes <;> cases closes
  split at closes
  · split at closes <;> cases closes
  split at closes
  next isUnit _ =>
    split at closes
    · split at closes <;> cases closes
    · cases closes
      rw [isUnit]
      exact List.mem_cons_self
  all_goals
    split at closes <;> cases closes

theorem read_literal (lists : state.Lists whole) (within : ∀ v ∈ t, v ∈ whole)
    (read : ClassState.read fuel atStart state t = .literal u left) : u ∈ whole := by
  induction fuel generalizing atStart state t with
  | zero => cases read
  | succ fuel ih =>
      cases t with
      | nil => cases read
      | cons v rest =>
          rw [read_succ] at read
          rcases step_cases state atStart v rest with ⟨-, closes⟩ | ⟨-, never⟩ |
            ⟨next, shorter, stepped, isSuffix⟩
          · rw [closes] at read
            exact lists u (close_literal read)
          · rw [never] at read
            cases read
          · rw [stepped] at read
            exact ih (step_lists lists (within v List.mem_cons_self) stepped)
              (fun w later => within w (List.mem_cons_of_mem _ (isSuffix.subset later))) read

/-- A class that stands for one unit lists that unit. -/
theorem readClass_literal (read : readClass t = .literal u left) : u ∈ t := by
  cases t with
  | nil => cases read
  | cons v rest =>
      have empty : ∀ negated, ClassState.Lists { negated } (v :: rest) :=
        fun _ _ impossible => nomatch impossible
      rw [readClass] at read
      split at read
      · exact read_literal (empty _) (fun w later => List.mem_cons_of_mem _ later) read
      · exact read_literal (empty _) (fun w listed => listed) read

end Units

end TabCompletion.Wildcard
