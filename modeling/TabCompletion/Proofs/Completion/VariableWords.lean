import TabCompletion.Completion.Variable
import TabCompletion.Proofs.Text.Lowering

/-!
Variables as they are written and read. A word is a sigil, perhaps braces, and a path that is cut
behind its first colon. A variable that is written for a word reads back as that variable: a qualifier
holds no colon but its last unit, and where braces are left out the path does not look like one.
-/

namespace TabCompletion.Completion

/-! Paths. -/

/-- A path cut behind its first colon: the qualifier and the name. -/
def splitPath (path : Text) : Text × Text :=
  match Text.indexOf? ":" path with
  | some colon => (path.take (colon + 1), path.drop (colon + 1))
  | none => ([], path)

section Paths

variable {front : Text} (colonless : (':' : CodeUnit) ∉ front)

include colonless

theorem indexOf?_colonless : Text.indexOf? ":" front = none := by
  induction front with
  | nil => rfl
  | cons u rest ih =>
      rw [List.mem_cons, not_or] at colonless
      rw [Text.indexOf?, ih colonless.2, if_neg, Option.map_none]
      simpa [Text.ofString, Text.unitsOfPoint] using colonless.1

theorem indexOf?_colon (name : Text) :
    Text.indexOf? ":" (front ++ ":" ++ name) = some front.length := by
  induction front with
  | nil => rfl
  | cons u rest ih =>
      rw [List.mem_cons, not_or] at colonless
      rw [List.cons_append, List.cons_append, Text.indexOf?, ih colonless.2, if_neg]
      · rfl
      · simpa [Text.ofString, Text.unitsOfPoint] using colonless.1

/-- A path without a colon is a name. -/
theorem splitPath_colonless : splitPath front = ([], front) := by
  rw [splitPath, indexOf?_colonless colonless]

theorem splitPath_qualified (name : Text) :
    splitPath (front ++ ":" ++ name) = (front ++ ":", name) := by
  have width : front.length + 1 = (front ++ Text.ofString ":").length := by
    rw [List.length_append]
    rfl
  rw [splitPath, indexOf?_colon colonless]
  simp only [width, List.take_left, List.drop_left]

end Paths

/-- A qualifier is empty or ends in the first colon of its path. -/
theorem splitPath_cases (path : Text) :
    (splitPath path).1 = [] ∨ ∃ front name, (':' : CodeUnit) ∉ front ∧
      path = front ++ ":" ++ name ∧ (splitPath path).1 = front ++ ":" := by
  by_cases isColon : (':' : CodeUnit) ∈ path
  · obtain ⟨front, name, split, colonless⟩ := List.eq_append_cons_of_mem isColon
    have whole : path = front ++ Text.ofString ":" ++ name := by
      rw [split, List.append_assoc]
      rfl
    exact Or.inr ⟨front, name, colonless, whole,
      whole ▸ congrArg Prod.fst (splitPath_qualified colonless name)⟩
  · exact Or.inl (congrArg Prod.fst (splitPath_colonless isColon))

/-- Another name behind the same qualifier is cut off at the same place. -/
theorem splitPath_renamed (path : Text) {name : Text}
    (whole : (splitPath path).1 = [] → (':' : CodeUnit) ∉ name) :
    splitPath ((splitPath path).1 ++ name) = ((splitPath path).1, name) := by
  rcases splitPath_cases path with unqualified | ⟨front, behind, colonless, -, isQualifier⟩
  · rw [unqualified, List.nil_append, splitPath_colonless (whole unqualified)]
  · rw [isQualifier, splitPath_qualified colonless]

/-! Words. -/

/-- The units that a variable may start with. -/
def sigils : List CodeUnit := ['$', '@']

/-- What stands in the braces, if a word opens them; the closing brace may be missing. -/
def insideBraces (rest : Text) : Text :=
  if Text.startsWith rest "\x7b" then
    if Text.endsWith (rest.drop 1) "\x7d" then (rest.drop 1).dropLast else rest.drop 1
  else rest

/-- The variable that is written behind a sigil. -/
def VariableWord.behind (sigil : CodeUnit) (rest : Text) : VariableWord :=
  { sigil, braced := Text.startsWith rest "\x7b"
    qualifier := (splitPath (insideBraces rest)).1, name := (splitPath (insideBraces rest)).2 }

section Words

variable {sigil : CodeUnit} {rest path name : Text}

theorem VariableWord.ofText_sigil (isSigil : sigil ∈ sigils) (rest : Text) :
    VariableWord.ofText (sigil :: rest) = .behind sigil rest := by
  rcases List.mem_cons.mp isSigil with rfl | isAt
  · rfl
  · obtain rfl := List.mem_singleton.mp isAt
    rfl

/-- Every word reads as one that starts with its sigil. -/
theorem VariableWord.ofText_cases (w : Text) :
    ∃ sigil ∈ sigils, ∃ rest, VariableWord.ofText w = .behind sigil rest := by
  by_cases splatted : Text.startsWith w "@" = true
  · refine ⟨'@', by decide, w.drop 1, ?_⟩
    simp only [VariableWord.ofText, splatted]
    rfl
  · refine ⟨'$', by decide, if Text.startsWith w "$" then w.drop 1 else w, ?_⟩
    simp only [VariableWord.ofText, splatted]
    rfl

theorem startsWith_brace (t : Text) :
    Text.startsWith t "\x7b" = true ↔ t.head? = some ('\x7b' : CodeUnit) := by
  cases t with
  | nil => decide
  | cons u rest =>
      change (('\x7b' : CodeUnit) == u && true) = true ↔ some u = some ('\x7b' : CodeUnit)
      rw [Bool.and_true, beq_iff_eq, Option.some_inj, eq_comm]

theorem insideBraces_wrapped (path : Text) : insideBraces ("\x7b" ++ path ++ "\x7d") = path := by
  have opened : Text.startsWith (Text.ofString "\x7b" ++ path ++ Text.ofString "\x7d") "\x7b" = true :=
    List.isPrefixOf_iff_prefix.mpr ⟨path ++ Text.ofString "\x7d", (List.append_assoc ..).symm⟩
  have closed : Text.endsWith (path ++ Text.ofString "\x7d") "\x7d" = true :=
    List.isSuffixOf_iff_suffix.mpr ⟨path, rfl⟩
  rw [insideBraces, if_pos opened]
  change (if Text.endsWith (path ++ Text.ofString "\x7d") "\x7d" then _ else _) = path
  rw [if_pos closed]
  exact List.dropLast_concat

/-- In braces a path is read as it is. -/
theorem VariableWord.behind_wrapped (sigil : CodeUnit) (path : Text) :
    VariableWord.behind sigil ("\x7b" ++ path ++ "\x7d") =
      { sigil, braced := true, qualifier := (splitPath path).1, name := (splitPath path).2 } := by
  rw [behind, insideBraces_wrapped]
  rfl

/-- Without braces too, unless it starts with one. -/
theorem VariableWord.behind_unwrapped (sigil : CodeUnit)
    (unbraced : path.head? ≠ some ('\x7b' : CodeUnit)) :
    VariableWord.behind sigil path =
      { sigil, braced := false, qualifier := (splitPath path).1, name := (splitPath path).2 } := by
  have plain := mt (startsWith_brace path).mp unbraced
  rw [behind, insideBraces, if_neg plain, Bool.eq_false_iff.mpr plain]

theorem head?_bare (isBare : isBareName name = true) : name.head? ≠ some ('\x7b' : CodeUnit) := by
  cases name with
  | nil => intro isBrace; cases isBrace
  | cons u rest =>
      intro isBrace
      obtain rfl := Option.some.inj isBrace
      -- A brace is neither a letter nor a number.
      have points : Text.points (('\x7b' : CodeUnit) :: rest) = 0x7B :: Text.points rest :=
        Text.points_cons (by decide) rest
      have isOther : isBareName (('\x7b' : CodeUnit) :: rest) = false := by
        have noLetter : (0x7B == 0x5F || 0x7B == 0x3F ||
            Text.Category.holds Text.Category.letter 0x7B ||
            Text.Category.holds Text.Category.number 0x7B) = false := by decide +kernel
        rw [isBareName, points, List.all_cons, noLetter, Bool.false_and, Bool.and_false]
        rfl
      rw [isOther] at isBare
      cases isBare

/-- The qualifier of a word without braces starts as the word does. -/
theorem head?_qualified (unwrapped : (VariableWord.behind sigil rest).braced = false)
    (filled : (splitPath (insideBraces rest)).1 ≠ []) (name : Text) :
    ((splitPath (insideBraces rest)).1 ++ name).head? ≠ some ('\x7b' : CodeUnit) := by
  have plain : ¬Text.startsWith rest "\x7b" = true := Bool.eq_false_iff.mp unwrapped
  rw [insideBraces, if_neg plain] at filled ⊢
  rw [List.head?_append_of_ne_nil _ filled]
  rcases splitPath_cases rest with unqualified | ⟨front, behind, -, split, isQualifier⟩
  · exact absurd unqualified filled
  · rw [← List.head?_append_of_ne_nil _ filled, isQualifier, ← split]
    exact mt (startsWith_brace rest).mpr plain

theorem VariableWord.write_filled (w : VariableWord) (q : Text) (filled : name ≠ []) :
    w.write q name = w.sigil ::
      (if w.braced || !isBareName name then "\x7b" ++ (q ++ name) ++ "\x7d" else q ++ name) := by
  have isFilled : name.isEmpty = false := by simpa using filled
  rw [write, isFilled, Bool.not_false, Bool.true_and]
  split <;> rfl

end Words

/-- A variable that is written for a word, with the qualifier of the word or with none, is read back
as it is. Braces are there if the word has them or if the name needs them. -/
theorem written_variable_reads_back (w q n : Text)
    (own : q = [] ∨ q = (VariableWord.ofText w).qualifier) (filled : n ≠ [])
    (whole : q = [] → (':' : CodeUnit) ∉ n) :
    VariableWord.ofText ((VariableWord.ofText w).write q n) =
      { sigil := (VariableWord.ofText w).sigil
        braced := (VariableWord.ofText w).braced || !isBareName n
        qualifier := q, name := n } := by
  obtain ⟨sigil, isSigil, rest, typed⟩ := VariableWord.ofText_cases w
  rw [typed] at own ⊢
  have cut : splitPath (q ++ n) = (q, n) := by
    rcases own with rfl | rfl
    · exact splitPath_colonless (whole rfl)
    · exact splitPath_renamed _ whole
  rw [VariableWord.write_filled _ q filled]
  change VariableWord.ofText (sigil :: _) = _
  rw [VariableWord.ofText_sigil isSigil]
  split
  next needed =>
    rw [VariableWord.behind_wrapped, cut, needed]
    rfl
  next notNeeded =>
    rw [Bool.not_eq_true] at notNeeded
    obtain ⟨unwrapped, isBare⟩ := Bool.or_eq_false_iff.mp notNeeded
    rw [Bool.not_eq_false'] at isBare
    have unbraced : (q ++ n).head? ≠ some ('\x7b' : CodeUnit) := by
      by_cases unqualified : q = []
      · rw [unqualified]
        exact head?_bare isBare
      · obtain rfl := own.resolve_left unqualified
        exact head?_qualified unwrapped unqualified n
    rw [VariableWord.behind_unwrapped sigil unbraced, cut, notNeeded]
    rfl

/-- Behind a qualifier a name may hold a colon; it then needs braces, though the word had none. -/
theorem colon_name_reads_back :
    (VariableWord.ofText "$env:Pa").qualifier = Text.ofString "env:" ∧
      isBareName "a:b-c" = false ∧ (':' : CodeUnit) ∈ Text.ofString "a:b-c" ∧
      VariableWord.ofText ((VariableWord.ofText "$env:Pa").write "env:" "a:b-c") =
        { sigil := '$', braced := true, qualifier := "env:", name := "a:b-c" } := by
  have isOther : isBareName "a:b-c" = false := by decide +kernel
  refine ⟨rfl, isOther, by decide, ?_⟩
  rw [written_variable_reads_back "$env:Pa" "env:" "a:b-c" (Or.inr rfl) (by decide)
    (fun unqualified => absurd unqualified (by decide)), isOther]
  rfl

end TabCompletion.Completion
