import TabCompletion.Completion.Path
import TabCompletion.Proofs.Paths.Memory

/-!
How a word is taken apart. The container in which the items of a word are looked up is searched for
by the expanded word and the directory is kept as it was typed; both lead to the same place.
-/

namespace TabCompletion.Completion

/-! The directory of a path. -/

section Directory

variable {path front leaf : Text} {u : CodeUnit}

/-- A text without separators. -/
def Flat (t : Text) : Prop := ∀ u ∈ t, isSeparator u = false

theorem flat_cons {t : Text} : Flat (u :: t) ↔ isSeparator u = false ∧ Flat t := List.forall_mem_cons

theorem flat_reverse {t : Text} (flat : Flat t) : Flat t.reverse :=
  fun u listed => flat u (List.mem_reverse.mp listed)

theorem flat_nil : Flat [] := fun _ listed => absurd listed List.not_mem_nil

theorem directoryLength_flat (flat : Flat path) : directoryLength path = 0 := by
  have none : path.reverse.findIdx? isSeparator = none :=
    List.findIdx?_eq_none_iff.mpr (flat_reverse flat)
  rw [directoryLength, Text.findLastIndex?, none]
  rfl

theorem directoryLength_last (isSep : isSeparator u = true) (flat : Flat leaf) :
    directoryLength (front ++ u :: leaf) = front.length + 1 := by
  have none : leaf.reverse.findIdx? isSeparator = none :=
    List.findIdx?_eq_none_iff.mpr (flat_reverse flat)
  have last : (front ++ u :: leaf).reverse.findIdx? isSeparator = some leaf.length := by
    rw [List.reverse_append, List.reverse_cons, List.append_assoc, List.findIdx?_append, none]
    simp [List.findIdx?_cons, isSep]
  rw [directoryLength, Text.findLastIndex?, last, List.length_append, List.length_cons]
  simp only [Option.map_some, Option.getD_some]
  omega

/-- A path has no separator, or it has a last one. -/
theorem flat_or_last (path : Text) :
    Flat path ∨ ∃ front u leaf, path = front ++ u :: leaf ∧ isSeparator u = true ∧ Flat leaf := by
  induction path with
  | nil => exact Or.inl flat_nil
  | cons v rest ih =>
      rcases ih with flat | ⟨front, u, leaf, rfl, isSep, flat⟩
      · cases isSep : isSeparator v with
        | true => exact Or.inr ⟨[], v, rest, rfl, isSep, flat⟩
        | false => exact Or.inl (flat_cons.mpr ⟨isSep, flat⟩)
      · exact Or.inr ⟨v :: front, u, leaf, rfl, isSep, flat⟩

end Directory

/-! The place to which a word leads. -/

section Place

variable {paths : PathProvider} {word front leaf : Text} {u : CodeUnit}

/-- Whether a word goes on from the home directory. -/
def isHomeRooted (word : Text) : Bool :=
  word == Text.ofString "~" || Text.startsWith word "~/" || Text.startsWith word "~\\"

/-- A word with the home directory in place of the tilde that it starts with. -/
def expandHome (home word : Text) : Text := if isHomeRooted word then home ++ word.drop 1 else word

/-- A directory, from the current location on unless it is absolute. -/
def locate (paths : PathProvider) (directory : Text) : Text :=
  if paths.isAbsolute directory then directory else paths.join paths.currentLocation directory

/-- What is written before the name of an item that a word is completed to. -/
def PathWord.head (paths : PathProvider) (parts : PathWord) : Text :=
  if !parts.typedDirectory.isEmpty || parts.isRooted then parts.typedDirectory
  else "." ++ [paths.separator]

theorem ne_tilde (isSep : isSeparator u = true) : u ≠ ('~' : CodeUnit) := by
  rintro rfl
  cases isSep

theorem isHomeRooted_cons_cons (u v : CodeUnit) (rest : Text) :
    isHomeRooted (u :: v :: rest) = (u == '~' && isSeparator v) := by
  have tilde : Text.startsWith (u :: v :: rest) "~/" = (u == '~' && v == '/') ∧
      Text.startsWith (u :: v :: rest) "~\\" = (u == '~' && v == '\\') := by
    simp [Text.startsWith, Text.ofString, Text.unitsOfPoint, List.isPrefixOf, BEq.comm]
  have longer : (u :: v :: rest == Text.ofString "~") = false :=
    beq_eq_false_iff_ne.mpr fun same => List.cons_ne_nil v rest (List.cons.inj same).2
  rw [isHomeRooted, longer, Bool.false_or, tilde.1, tilde.2, isSeparator, Bool.and_or_distrib_left]

theorem isHomeRooted_lone (u : CodeUnit) : isHomeRooted [u] = (u == '~') := by
  rw [Bool.eq_iff_iff]
  simp [isHomeRooted, Text.startsWith, Text.ofString, Text.unitsOfPoint]

/-- A tilde is looked for in the directory of a word, unless the word is the tilde alone. -/
theorem isHomeRooted_directory (isSep : isSeparator u = true) (front leaf : Text) :
    isHomeRooted (front ++ u :: leaf) = isHomeRooted (front ++ [u]) := by
  have notTilde : (u == '~') = false := beq_eq_false_iff_ne.mpr (ne_tilde isSep)
  match front with
  | [] =>
      cases leaf with
      | nil => rfl
      | cons v rest =>
          rw [List.nil_append, List.nil_append, isHomeRooted_cons_cons, isHomeRooted_lone, notTilde]
          rfl
  | [v] => exact (isHomeRooted_cons_cons v u leaf).trans (isHomeRooted_cons_cons v u []).symm
  | v :: w :: rest =>
      exact (isHomeRooted_cons_cons v w _).trans (isHomeRooted_cons_cons v w _).symm

/-- The tilde of a word is replaced in its directory. -/
theorem expandHome_last (isSep : isSeparator u = true) (home front : Text) :
    ∃ start, ∀ leaf, expandHome home (front ++ u :: leaf) = start ++ u :: leaf := by
  cases rooted : isHomeRooted (front ++ [u]) with
  | false =>
      refine ⟨front, fun leaf => ?_⟩
      rw [expandHome, isHomeRooted_directory isSep, rooted]
      rfl
  | true =>
      cases front with
      | nil =>
          rw [List.nil_append, isHomeRooted_lone, beq_iff_eq] at rooted
          exact absurd rooted (ne_tilde isSep)
      | cons v rest =>
          refine ⟨home ++ rest, fun leaf => ?_⟩
          rw [expandHome, isHomeRooted_directory isSep, rooted, if_pos rfl, List.append_assoc]
          rfl

theorem isHomeRooted_flat (flat : Flat word) (other : word ≠ Text.ofString "~") :
    isHomeRooted word = false := by
  match word with
  | [] => rfl
  | [v] =>
      rw [isHomeRooted_lone, beq_eq_false_iff_ne]
      rintro rfl
      exact other rfl
  | v :: w :: rest =>
      have flatSecond := (flat_cons.mp (flat_cons.mp flat).2).1
      rw [isHomeRooted_cons_cons, flatSecond, Bool.and_false]

/-! A word taken apart. -/

/-- Takes apart what is searched for beside what was typed. -/
def PathWord.split (paths : PathProvider) (searched typed : Text) (homeRooted : Bool) : PathWord :=
  { container :=
      if directoryLength searched = 0 then paths.currentLocation
      else locate paths (searched.take (directoryLength searched))
    leaf := searched.drop (directoryLength searched)
    typedDirectory := if directoryLength searched = 0 then [] else typed.take (directoryLength typed)
    isRooted := homeRooted || paths.isAbsolute searched }

theorem PathWord.of_tilde (paths : PathProvider) :
    PathWord.of paths "~" =
      split paths (paths.home ++ [paths.separator]) ("~" ++ [paths.separator]) true := by
  have alone : (Text.ofString "~" == Text.ofString "~") = true := beq_self_eq_true _
  have nothing : (Text.ofString "~").drop 1 = [] := rfl
  simp only [PathWord.of, split, locate, alone, nothing, Bool.true_or, if_true, List.append_nil]

theorem PathWord.of_other (paths : PathProvider) (other : word ≠ Text.ofString "~") :
    PathWord.of paths word = split paths (expandHome paths.home word) word (isHomeRooted word) := by
  have notTilde : (word == Text.ofString "~") = false := beq_eq_false_iff_ne.mpr other
  simp only [PathWord.of, split, locate, expandHome, isHomeRooted, notTilde, Bool.false_eq_true, if_false]

theorem PathWord.split_flat (flat : Flat word) (typed : Text) (homeRooted : Bool) :
    split paths word typed homeRooted =
      { container := paths.currentLocation, leaf := word, typedDirectory := []
        isRooted := homeRooted || paths.isAbsolute word } := by
  simp only [split, directoryLength_flat flat, if_true, List.drop_zero]

theorem PathWord.split_last (paths : PathProvider) (isSep : isSeparator u = true) (flat : Flat leaf)
    (start front : Text) (homeRooted : Bool) :
    split paths (start ++ u :: leaf) (front ++ u :: leaf) homeRooted =
      { container := locate paths (start ++ [u]), leaf, typedDirectory := front ++ [u]
        isRooted := homeRooted || paths.isAbsolute (start ++ u :: leaf) } := by
  have upTo (t : Text) : (t ++ u :: leaf).take (t.length + 1) = t ++ [u] := by
    rw [List.append_cons, List.take_left' (by simp)]
  have behind : (start ++ u :: leaf).drop (start.length + 1) = leaf := by
    rw [List.append_cons, List.drop_left' (by simp)]
  simp only [split, directoryLength_last isSep flat, Nat.succ_ne_zero, if_false, upTo, behind]

/-- The last separator of a path. -/
def lastSeparator? (path : Text) : Option CodeUnit := path.reverse.find? isSeparator

theorem lastSeparator?_last (isSep : isSeparator u = true) (flat : Flat leaf) :
    lastSeparator? (front ++ u :: leaf) = some u := by
  have none : leaf.reverse.find? isSeparator = none := by
    rw [List.find?_eq_none]
    exact fun v listed => Bool.eq_false_iff.mp (flat_reverse flat v listed)
  rw [lastSeparator?, List.reverse_append, List.reverse_cons, List.append_assoc, List.find?_append, none]
  simp [isSep]

/-- The directory that is searched is the one that was typed, with its tilde replaced. -/
theorem PathWord.of_last (paths : PathProvider) (front : Text) (isSep : isSeparator u = true)
    (flat : Flat leaf) :
    (PathWord.of paths (front ++ u :: leaf)).container =
        locate paths (expandHome paths.home (front ++ [u])) ∧
      (PathWord.of paths (front ++ u :: leaf)).leaf = leaf ∧
      (PathWord.of paths (front ++ u :: leaf)).typedDirectory = front ++ [u] := by
  have other : front ++ u :: leaf ≠ Text.ofString "~" := by
    intro same
    have isTilde : u ∈ Text.ofString "~" := same ▸ List.mem_append_right _ List.mem_cons_self
    exact ne_tilde isSep (List.mem_singleton.mp isTilde)
  obtain ⟨start, expands⟩ := expandHome_last isSep paths.home front
  rw [of_other paths other, expands, split_last paths isSep flat, expands]
  exact ⟨rfl, rfl, rfl⟩

theorem PathWord.head_typed (filled : (PathWord.of paths word).typedDirectory ≠ []) :
    (PathWord.of paths word).head paths = (PathWord.of paths word).typedDirectory := by
  rw [PathWord.head, List.isEmpty_eq_false_iff.mpr filled]
  rfl

theorem PathWord.head_last (paths : PathProvider) (front : Text) (isSep : isSeparator u = true)
    (flat : Flat leaf) :
    (PathWord.of paths (front ++ u :: leaf)).head paths = front ++ [u] := by
  have isTyped := (of_last paths front isSep flat).2.2
  rw [head_typed (isTyped ▸ List.append_ne_nil_of_right_ne_nil _ (List.cons_ne_nil _ _)), isTyped]

end Place

/-! Places in the tree of paths. -/

section Memory

open MemoryPaths

variable {paths : PathProvider} {entries : List Text} {currentLocation home : Text}
  {shares : Assoc (List Text)} {directory word front leaf : Text} {u : CodeUnit}
  (isMemory : paths = provider entries currentLocation home shares)

/-- The place to which a word leads. -/
def place (paths : PathProvider) (word : Text) : List Text :=
  walk [] (locate paths (expandHome paths.home word))

include isMemory

theorem place_directory (ends : directory.getLast? = some ('/' : CodeUnit)) (rest : Text) :
    place paths (directory ++ rest) = walk (place paths directory) rest := by
  obtain ⟨front, rfl⟩ := List.getLast?_eq_some_iff.mp ends
  obtain ⟨start, expands⟩ := expandHome_last (u := ('/' : CodeUnit)) rfl paths.home front
  have ended : (start ++ [('/' : CodeUnit)]).getLast? = some ('/' : CodeUnit) := List.getLast?_concat
  have sameKind : paths.isAbsolute (start ++ [('/' : CodeUnit)] ++ rest) =
      paths.isAbsolute (start ++ [('/' : CodeUnit)]) := isAbsolute_slash isMemory start rest
  -- What follows the slash changes neither the tilde nor the kind of the path.
  rw [place, place, expands, List.append_assoc, List.singleton_append, expands, List.append_cons,
    locate, locate, sameKind]
  split
  · exact walk_directory ended [] rest
  · rw [walk_join isMemory, walk_join isMemory, walk_directory ended]

theorem separator_eq : paths.separator = ('/' : CodeUnit) := by
  rw [isMemory]
  rfl

theorem isAbsolute_flat (flat : Flat word) : paths.isAbsolute word = false := by
  subst isMemory
  cases word with
  | nil => rfl
  | cons u rest =>
      have plain : u ≠ 47 ∧ u ≠ 92 := by simpa [isSeparator] using (flat_cons.mp flat).1
      simp [provider, Text.startsWith, Text.ofString, Text.unitsOfPoint, List.isPrefixOf, plain.1.symm,
        plain.2.symm]

theorem head_flat (flat : Flat word) (other : word ≠ Text.ofString "~") :
    (PathWord.of paths word).container = paths.currentLocation ∧
      (PathWord.of paths word).head paths = Text.ofString "./" := by
  rw [PathWord.of_other paths other, expandHome, isHomeRooted_flat flat other,
    if_neg Bool.false_ne_true, PathWord.split_flat flat, isAbsolute_flat isMemory flat]
  refine ⟨rfl, ?_⟩
  rw [PathWord.head, separator_eq isMemory]
  rfl

theorem head_tilde : (PathWord.of paths "~").container = locate paths (expandHome paths.home "~/") ∧
    (PathWord.of paths "~").head paths = Text.ofString "~/" := by
  rw [PathWord.of_tilde, separator_eq isMemory]
  have apart := PathWord.split_last (u := '/') paths rfl flat_nil paths.home "~" true
  rw [apart]
  exact ⟨rfl, rfl⟩

theorem place_here : place paths "./" = walk [] paths.currentLocation := by
  have relative : locate paths (expandHome paths.home "./") = paths.join paths.currentLocation "./" := by
    subst isMemory
    rfl
  rw [place, relative, walk_join isMemory]
  rfl

/-- A word is completed in the current location, or in the directory that is its head. -/
theorem head_cases (word : Text) :
    (PathWord.of paths word).head paths = Text.ofString "./" ∧
        (PathWord.of paths word).container = paths.currentLocation ∨
      (PathWord.of paths word).container =
          locate paths (expandHome paths.home ((PathWord.of paths word).head paths)) ∧
        ((PathWord.of paths word).head paths = Text.ofString "~/" ∨
          ∃ front u leaf, word = front ++ u :: leaf ∧ isSeparator u = true ∧ Flat leaf ∧
            (PathWord.of paths word).head paths = front ++ [u]) := by
  rcases flat_or_last word with flat | ⟨front, u, leaf, rfl, isSep, flatLeaf⟩
  · by_cases other : word = Text.ofString "~"
    · subst other
      obtain ⟨isContainer, isHead⟩ := head_tilde isMemory
      exact Or.inr ⟨isHead ▸ isContainer, Or.inl isHead⟩
    · obtain ⟨isContainer, isHead⟩ := head_flat isMemory flat other
      exact Or.inl ⟨isHead, isContainer⟩
  · have isHead := PathWord.head_last paths front isSep flatLeaf
    refine Or.inr ⟨?_, Or.inr ⟨front, u, leaf, rfl, isSep, flatLeaf, isHead⟩⟩
    rw [isHead]
    exact (PathWord.of_last paths front isSep flatLeaf).1

/-- The container in which a word is looked up is the place to which its head leads. -/
theorem container_place (word : Text) :
    walk [] (PathWord.of paths word).container =
      place paths ((PathWord.of paths word).head paths) := by
  rcases head_cases isMemory word with ⟨isHead, isContainer⟩ | ⟨isContainer, -⟩
  · rw [isHead, isContainer, place_here isMemory]
  · rw [isContainer, place]

theorem unrooted_of_absolute (absolute : paths.isAbsolute word = true) : isHomeRooted word = false := by
  subst isMemory
  match word with
  | [] => cases absolute
  | [u] =>
      rw [isHomeRooted_lone, beq_eq_false_iff_ne]
      rintro rfl
      cases absolute
  | u :: v :: rest =>
      have notTilde : (u == '~') = false := by
        rw [beq_eq_false_iff_ne]
        rintro rfl
        cases absolute
      rw [isHomeRooted_cons_cons, notTilde, Bool.false_and]

theorem place_absolute (absolute : paths.isAbsolute word = true) : place paths word = walk [] word := by
  rw [place, expandHome, unrooted_of_absolute isMemory absolute, if_neg Bool.false_ne_true, locate,
    absolute, if_pos rfl]

/-- Unless its last separator is a backslash, a word has a head that ends in a slash. -/
theorem head_ends (slashed : lastSeparator? word ≠ some ('\\' : CodeUnit)) :
    ((PathWord.of paths word).head paths).getLast? = some ('/' : CodeUnit) := by
  rcases head_cases isMemory word with
    ⟨isHead, -⟩ | ⟨-, isHead | ⟨front, u, leaf, rfl, isSep, flat, isHead⟩⟩
  · rw [isHead]
    rfl
  · rw [isHead]
    rfl
  · rw [lastSeparator?_last isSep flat] at slashed
    rw [isHead, List.getLast?_concat]
    rw [isSeparator, Bool.or_eq_true, beq_iff_eq, beq_iff_eq] at isSep
    exact isSep.elim (congrArg some) fun same => absurd (congrArg some same) slashed

/-- The head of a word holds a backslash only if the word does. -/
theorem head_slashed (slashed : ('\\' : CodeUnit) ∉ word) :
    ('\\' : CodeUnit) ∉ (PathWord.of paths word).head paths := by
  rcases head_cases isMemory word with
    ⟨isHead, -⟩ | ⟨-, isHead | ⟨front, u, leaf, rfl, -, -, isHead⟩⟩
  · rw [isHead]
    decide
  · rw [isHead]
    decide
  · rw [List.append_cons, List.mem_append, not_or] at slashed
    rw [isHead]
    exact slashed.1

end Memory

end TabCompletion.Completion
