import TabCompletion.Proofs.Types.Resolution

/-!
The notation of type names. A name in brackets is taken apart at the commas outside of inner brackets
and written again without blanks and without empty arguments. An array suffix peels off a name, but what
stands before it is then read as a name of its own: the brackets that are left of two suffixes count as
an argument list without arguments.
-/

namespace TabCompletion

/-! Blanks around a text. -/

namespace Text

/-- A text without blanks in front. -/
def Led (t : Text) : Prop := ∀ u, t.head? = some u → isSpace u = false

/-- A text without blanks at its ends. -/
def Trimmed (t : Text) : Prop := Led t ∧ ∀ u, t.getLast? = some u → isSpace u = false

def Unblank (t : Text) : Prop := ∀ u ∈ t, isSpace u = false

theorem trimLeft_eq {t : Text} (led : Led t) : trimLeft t = t := by
  cases t with
  | nil => rfl
  | cons u rest => exact List.dropWhile_cons_of_neg (by rw [led u rfl]; exact Bool.false_ne_true)

theorem trimRight_eq {t : Text} (filled : ∀ u, t.getLast? = some u → isSpace u = false) :
    trimRight t = t := by
  have reversed : trimLeft t.reverse = t.reverse :=
    trimLeft_eq fun u first => filled u (by rwa [List.head?_reverse] at first)
  rw [trimRight, ← trimLeft, reversed, List.reverse_reverse]

theorem Trimmed.trim_eq {t : Text} (trimmed : Trimmed t) : trim t = t := by
  rw [trim, trimLeft_eq trimmed.1, trimRight_eq trimmed.2]

theorem trimmed_trim (t : Text) : Trimmed (trim t) := by
  have left : ∀ t : Text, Led (trimLeft t) := by
    intro t u first
    have absent := List.head?_dropWhile_not isSpace t
    rw [← trimLeft, first] at absent
    exact absent
  constructor
  · intro u first
    -- The blanks at the end go, and what is left still starts as before.
    obtain ⟨rest, whole⟩ : ∃ rest, trimLeft t = trim t ++ rest := by
      have split := List.takeWhile_append_dropWhile (p := isSpace) (l := (trimLeft t).reverse)
      have turned := congrArg List.reverse split
      rw [List.reverse_reverse, List.reverse_append] at turned
      exact ⟨_, turned.symm⟩
    refine left t u ?_
    rw [whole, List.head?_append, first]
    rfl
  · intro u last
    refine left (trimLeft t).reverse u ?_
    rwa [trim, trimRight, ← trimLeft, List.getLast?_reverse] at last

theorem Unblank.trimmed {t : Text} (unblank : Unblank t) : Trimmed t :=
  ⟨fun u first => unblank u (List.mem_of_mem_head? first),
    fun u last => unblank u (List.mem_of_mem_getLast? last)⟩

theorem join_singleton (separator piece : Text) : join separator [piece] = piece := by
  simp [join]

/-- What holds of the pieces and of the separator, and of two texts together, holds of what is joined. -/
theorem join_closed {P : Text → Prop} {separator : Text} (nothing : P []) (between : P separator)
    (together : ∀ {s t}, P s → P t → P (s ++ t)) {pieces : List Text}
    (each : ∀ piece ∈ pieces, P piece) : P (join separator pieces) := by
  induction pieces with
  | nil => exact nothing
  | cons first rest ih =>
      have here := each first List.mem_cons_self
      have later := ih fun piece listed => each piece (List.mem_cons_of_mem _ listed)
      cases rest with
      | nil =>
          rw [join_singleton]
          exact here
      | cons second more =>
          rw [Catalog.join_cons_cons]
          exact together (together here between) later

end Text

namespace TypeName

/-! Argument lists. -/

section Arguments

/-- How deep in brackets a text leaves one that starts at some depth. -/
def depthAfter (depth : Int) : Text → Int
  | [] => depth
  | u :: rest =>
      if u == '[' then depthAfter (depth + 1) rest
      else if u == ']' then depthAfter (depth - 1) rest
      else depthAfter depth rest

/-- No comma of the text stands outside of brackets. -/
def Unparted (depth : Int) : Text → Prop
  | [] => True
  | u :: rest =>
      if u == '[' then Unparted (depth + 1) rest
      else if u == ']' then Unparted (depth - 1) rest
      else (u == ',' && depth == 0) = false ∧ Unparted depth rest

/-- These are the pieces of one text: commas stand between them only. -/
def Parted : List Text → Prop
  | [] => True
  | piece :: rest => Unparted 0 piece ∧ (rest ≠ [] → depthAfter 0 piece = 0) ∧ Parted rest

theorem depthAfter_append (depth : Int) (s t : Text) :
    depthAfter depth (s ++ t) = depthAfter (depthAfter depth s) t := by
  induction s generalizing depth with
  | nil => rfl
  | cons u rest ih =>
      rw [List.cons_append, depthAfter, depthAfter]
      split
      · exact ih _
      · split
        · exact ih _
        · exact ih _

theorem unparted_append (depth : Int) (s t : Text) :
    Unparted depth (s ++ t) ↔ Unparted depth s ∧ Unparted (depthAfter depth s) t := by
  induction s generalizing depth with
  | nil => exact (and_iff_right trivial).symm
  | cons u rest ih =>
      rw [List.cons_append, Unparted, Unparted, depthAfter]
      split
      · exact ih _
      · split
        · exact ih _
        · rw [ih, and_assoc]

theorem plain_depth {t : Text} (depth : Int)
    (plain : ∀ u ∈ t, u ≠ ('[' : CodeUnit) ∧ u ≠ (']' : CodeUnit) ∧ u ≠ (',' : CodeUnit)) :
    depthAfter depth t = depth ∧ Unparted depth t := by
  induction t with
  | nil => exact ⟨rfl, trivial⟩
  | cons u rest ih =>
      obtain ⟨opens, closes, parts⟩ := plain u List.mem_cons_self
      have later := ih fun v listed => plain v (List.mem_cons_of_mem _ listed)
      rw [depthAfter, Unparted, if_neg (mt beq_iff_eq.mp opens), if_neg (mt beq_iff_eq.mp closes),
        if_neg (mt beq_iff_eq.mp opens), if_neg (mt beq_iff_eq.mp closes),
        beq_eq_false_iff_ne.mpr parts]
      exact ⟨later.1, rfl, later.2⟩

/-- Arguments that close their brackets and hold their commas inside of them are parted as they stand. -/
theorem parted_of_level {pieces : List Text}
    (level : ∀ piece ∈ pieces, depthAfter 0 piece = 0 ∧ Unparted 0 piece) : Parted pieces := by
  induction pieces with
  | nil => trivial
  | cons first rest ih =>
      obtain ⟨closed, unparted⟩ := level first List.mem_cons_self
      exact ⟨unparted, fun _ => closed, ih fun piece listed => level piece (List.mem_cons_of_mem _ listed)⟩

/-- Text in which no comma is met becomes part of the argument. -/
theorem splitArguments_append {depth : Int} {s : Text} (unparted : Unparted depth s)
    (current t : Text) :
    splitArguments depth current (s ++ t) =
      splitArguments (depthAfter depth s) (s.reverse ++ current) t := by
  induction s generalizing depth current with
  | nil => rfl
  | cons u rest ih =>
      have pushed : ∀ depth, Unparted depth rest → splitArguments depth (u :: current) (rest ++ t) =
          splitArguments (depthAfter depth rest) ((u :: rest).reverse ++ current) t := by
        intro depth unparted
        rw [ih unparted, List.reverse_cons, List.append_assoc]
        rfl
      rw [Unparted] at unparted
      rw [List.cons_append, splitArguments, depthAfter]
      by_cases opens : (u == '[') = true
      · rw [if_pos opens] at unparted ⊢
        rw [if_pos opens]
        exact pushed _ unparted
      · rw [if_neg opens] at unparted ⊢
        rw [if_neg opens]
        by_cases closes : (u == ']') = true
        · rw [if_pos closes] at unparted ⊢
          rw [if_pos closes]
          exact pushed _ unparted
        · rw [if_neg closes] at unparted ⊢
          rw [if_neg closes, if_neg (Bool.eq_false_iff.mp unparted.1)]
          exact pushed _ unparted.2

theorem splitArguments_unparted {depth : Int} {s : Text} (unparted : Unparted depth s)
    (current : Text) : splitArguments depth current s = [current.reverse ++ s] := by
  have whole := splitArguments_append unparted current []
  rw [List.append_nil] at whole
  rw [whole, splitArguments, List.reverse_append, List.reverse_reverse]

theorem splitArguments_join {pieces : List Text} (parted : Parted pieces) (filled : pieces ≠ []) :
    splitArguments 0 [] (Text.join "," pieces) = pieces := by
  induction pieces with
  | nil => exact absurd rfl filled
  | cons first rest ih =>
      obtain ⟨unparted, level, later⟩ := parted
      -- The last piece may leave a bracket open, as no comma follows it.
      cases rest with
      | nil =>
          rw [Text.join_singleton, splitArguments_unparted unparted]
          rfl
      | cons second more =>
          have comma : ∀ current t, splitArguments 0 current (Text.ofString "," ++ t) =
              current.reverse :: splitArguments 0 [] t := fun _ _ => rfl
          rw [Catalog.join_cons_cons, List.append_assoc, splitArguments_append unparted,
            level (List.cons_ne_nil _ _), comma, ih later (List.cons_ne_nil _ _), List.append_nil,
            List.reverse_reverse]

theorem splitArguments_ne_nil (depth : Int) (current t : Text) :
    splitArguments depth current t ≠ [] := by
  induction t generalizing depth current with
  | nil => exact List.cons_ne_nil _ _
  | cons u rest ih =>
      rw [splitArguments]
      split
      · exact ih _ _
      · split
        · exact ih _ _
        · split
          · exact List.cons_ne_nil _ _
          · exact ih _ _

theorem join_splitArguments (depth : Int) (current t : Text) :
    Text.join "," (splitArguments depth current t) = current.reverse ++ t := by
  induction t generalizing depth current with
  | nil => rw [splitArguments, Text.join_singleton, List.append_nil]
  | cons u rest ih =>
      have pushed : ∀ depth, Text.join "," (splitArguments depth (u :: current) rest) =
          current.reverse ++ u :: rest := by
        intro depth
        rw [ih, List.reverse_cons, List.append_assoc]
        rfl
      rw [splitArguments]
      split
      · exact pushed _
      · split
        · exact pushed _
        · split
          · rename_i _ _ parts
            have isComma : u = (',' : CodeUnit) := beq_iff_eq.mp (Bool.and_eq_true_iff.mp parts).1
            obtain ⟨first, more, split⟩ := List.exists_cons_of_ne_nil (splitArguments_ne_nil depth [] rest)
            have whole := ih depth []
            rw [split] at whole ⊢
            rw [Catalog.join_cons_cons, whole, List.append_assoc, isComma]
            rfl
          · exact pushed _

theorem blank_plain {t : Text} (blank : ∀ u ∈ t, Text.isSpace u = true) :
    ∀ u ∈ t, u ≠ ('[' : CodeUnit) ∧ u ≠ (']' : CodeUnit) ∧ u ≠ (',' : CodeUnit) := by
  intro u listed
  have isBlank := blank u listed
  refine ⟨?_, ?_, ?_⟩ <;>
  · rintro rfl
    revert isBlank
    decide

/-- The arguments between two brackets. -/
def argumentsIn (inner : Text) : List Text :=
  ((splitArguments 0 [] inner).map Text.trim).filter (!·.isEmpty)

/-- Arguments that are filled and without blanks around them are what is between the brackets. -/
theorem join_argumentsIn {inner : Text}
    (tight : ∀ piece ∈ splitArguments 0 [] inner, piece ≠ [] ∧ Text.Trimmed piece) :
    argumentsIn inner = splitArguments 0 [] inner ∧ Text.join "," (argumentsIn inner) = inner := by
  have same : argumentsIn inner = splitArguments 0 [] inner := by
    rw [argumentsIn, List.map_congr_left fun piece listed => (tight piece listed).2.trim_eq,
      List.map_id', List.filter_eq_self]
    intro piece listed
    rw [Bool.not_eq_true', List.isEmpty_eq_false_iff]
    exact (tight piece listed).1
  refine ⟨same, ?_⟩
  rw [same, join_splitArguments]
  rfl

theorem join_argumentsIn_sublist (inner : Text) :
    (Text.join "," (argumentsIn inner)).Sublist inner := by
  have parts : ∀ pieces : List Text,
      (Text.join "," ((pieces.map Text.trim).filter (!·.isEmpty))).Sublist (Text.join "," pieces) := by
    intro pieces
    induction pieces with
    | nil => exact List.Sublist.refl _
    | cons first rest ih =>
        rw [List.map_cons, List.filter_cons]
        cases rest with
        | nil =>
            simp only [List.map_nil, List.filter_nil]
            split
            · rw [Text.join_singleton, Text.join_singleton]
              exact trim_sublist first
            · exact List.nil_sublist _
        | cons second more =>
            rw [Catalog.join_cons_cons]
            split
            · -- With the last of the other arguments its comma goes too.
              generalize ((second :: more).map Text.trim).filter (!·.isEmpty) = kept at ih ⊢
              cases kept with
              | nil =>
                  rw [Text.join_singleton, List.append_assoc]
                  exact (trim_sublist first).trans (List.sublist_append_left _ _)
              | cons next others =>
                  rw [Catalog.join_cons_cons]
                  exact ((trim_sublist first).append (List.Sublist.refl _)).append ih
            · exact ih.trans (List.sublist_append_right _ _)
  refine (parts _).trans ?_
  rw [join_splitArguments]
  exact List.Sublist.refl _

end Arguments

/-! Names. -/

section Names

/-- A name without array suffix taken apart. -/
def parts (name : Text) : Parsed :=
  match Text.indexOf? "[" name with
  | some opened =>
      if Text.endsWith name "]" then
        { baseName := name.take opened, isArray := false
          arguments := argumentsIn (Text.slice name (opened + 1) (name.length - 1)) }
      else { baseName := name, arguments := [], isArray := false }
  | none => { baseName := name, arguments := [], isArray := false }

def respelled (name : Text) : Text := (parts name).element

/-- A name that ends in empty brackets is the name of an array of what stands before them. -/
theorem parse_suffixed {text name : Text} (isArray : Text.trim text = name ++ "[]") :
    parse text = { parts name with isArray := true } := by
  have suffixed : Text.endsWith (Text.trim text) "[]" = true := by
    rw [isArray]
    exact List.isSuffixOf_iff_suffix.mpr (List.suffix_append _ _)
  have front : (Text.trim text).take ((Text.trim text).length - 2) = name := by
    rw [isArray, List.length_append]
    exact List.take_left
  rw [parse, suffixed]
  dsimp only
  rw [if_pos rfl, front, parts]
  -- Both look for the bracket in the same name, and copy what they found.
  cases Text.indexOf? "[" name with
  | none => rfl
  | some opened => cases Text.endsWith name "]" <;> rfl

theorem parse_unsuffixed {text : Text} (isPlain : ¬Text.ofString "[]" <:+ Text.trim text) :
    parse text = parts (Text.trim text) := by
  have unsuffixed : Text.endsWith (Text.trim text) "[]" = false :=
    Bool.eq_false_iff.mpr fun suffixed => isPlain (List.isSuffixOf_iff_suffix.mp suffixed)
  rw [parse, unsuffixed]
  rfl

theorem exists_front {text : Text} (isArray : (parse text).isArray = true) :
    ∃ name, Text.trim text = name ++ "[]" := by
  rw [isArray_parse] at isArray
  obtain ⟨name, split⟩ := List.isSuffixOf_iff_suffix.mp isArray
  exact ⟨name, split.symm⟩

theorem element_suffixed {text name : Text} (isArray : Text.trim text = name ++ "[]") :
    (parse text).element = respelled name := by
  rw [parse_suffixed isArray]
  rfl

theorem indexOf?_absent {t : Text} (absent : ('[' : CodeUnit) ∉ t) : Text.indexOf? "[" t = none := by
  induction t with
  | nil => rfl
  | cons u rest ih =>
      rw [List.mem_cons, not_or] at absent
      rw [Text.indexOf?, ih absent.2, if_neg, Option.map_none]
      simpa [Text.ofString, Text.unitsOfPoint] using absent.1

theorem indexOf?_first {base : Text} (absent : ('[' : CodeUnit) ∉ base) (rest : Text) :
    Text.indexOf? "[" (base ++ ("[" ++ rest)) = some base.length := by
  induction base with
  | nil => rfl
  | cons u more ih =>
      rw [List.mem_cons, not_or] at absent
      rw [List.cons_append, Text.indexOf?, ih absent.2, if_neg]
      · rfl
      · simpa [Text.ofString, Text.unitsOfPoint] using absent.1

theorem parts_bracketless {name : Text} (absent : ('[' : CodeUnit) ∉ name) :
    parts name = { baseName := name, arguments := [], isArray := false } := by
  rw [parts, indexOf?_absent absent]

theorem parts_bracketed {base : Text} (absent : ('[' : CodeUnit) ∉ base) (inner : Text) :
    parts (base ++ ("[" ++ (inner ++ "]"))) =
      { baseName := base, arguments := argumentsIn inner, isArray := false } := by
  have closed : Text.endsWith (base ++ ("[" ++ (inner ++ "]"))) "]" = true :=
    List.isSuffixOf_iff_suffix.mpr ⟨base ++ ("[" ++ inner), by simp only [List.append_assoc]⟩
  have inside : Text.slice (base ++ ("[" ++ (inner ++ "]"))) (base.length + 1)
      ((base ++ ("[" ++ (inner ++ "]"))).length - 1) = inner := by
    have front : base ++ ("[" ++ (inner ++ Text.ofString "]")) =
        (base ++ Text.ofString "[") ++ inner ++ "]" := by simp only [List.append_assoc]
    have width : ((base ++ Text.ofString "[") ++ inner ++ Text.ofString "]").length - 1 =
        ((base ++ Text.ofString "[") ++ inner).length := by
      rw [List.length_append]
      rfl
    have opening : base.length + 1 = (base ++ Text.ofString "[").length := by
      rw [List.length_append]
      rfl
    rw [front, width, Text.slice, List.take_left, opening, List.drop_left]
  simp only [parts, indexOf?_first absent, if_pos closed, inside, List.take_left]

/-- A name in which no bracket opens, or that is not closed by one, stands for itself; all others have
arguments in brackets. -/
theorem parts_cases (name : Text) :
    parts name = { baseName := name, arguments := [], isArray := false } ∨
      ∃ base inner, ('[' : CodeUnit) ∉ base ∧ name = base ++ ("[" ++ (inner ++ "]")) := by
  rw [parts]
  split
  · rename_i opened found
    split
    · rename_i closed
      right
      have split := indexOf?_bracket found
      have absent : ('[' : CodeUnit) ∉ name.take opened :=
        List.count_eq_zero.mp (bracketless_before found)
      obtain ⟨front, isFront⟩ := List.isSuffixOf_iff_suffix.mp closed
      have isLast : name.getLast? = some (']' : CodeUnit) := by
        rw [← isFront]
        exact List.getLast?_concat
      -- The bracket that closes is not the one that opens.
      rcases List.eq_nil_or_concat (name.drop (opened + 1)) with nothing | ⟨inner, last, isInner⟩
      · rw [split, nothing, List.append_nil] at isLast
        have opens := isLast.symm.trans List.getLast?_concat
        exact absurd opens (by decide)
      · rw [List.concat_eq_append] at isInner
        have closes : last = (']' : CodeUnit) := by
          rw [split, isInner, ← List.append_assoc, ← List.append_assoc, List.getLast?_concat] at isLast
          exact Option.some.inj isLast
        refine ⟨_, inner, absent, split.trans ?_⟩
        rw [isInner, closes]
        rfl
    · exact Or.inl rfl
  · exact Or.inl rfl

theorem respelled_bracketless {name : Text} (absent : ('[' : CodeUnit) ∉ name) :
    respelled name = name := by
  rw [respelled, parts_bracketless absent]
  rfl

theorem respelled_bracketed {base : Text} (absent : ('[' : CodeUnit) ∉ base) (inner : Text) :
    respelled (base ++ ("[" ++ (inner ++ "]"))) =
      if argumentsIn inner = [] then base
      else base ++ ("[" ++ (Text.join "," (argumentsIn inner) ++ "]")) := by
  rw [respelled, parts_bracketed absent, Parsed.element]
  simp only [List.isEmpty_iff, List.append_assoc]

theorem respelled_sublist (name : Text) : (respelled name).Sublist name := by
  rcases parts_cases name with same | ⟨base, inner, absent, rfl⟩
  · rw [respelled, same]
    exact List.Sublist.refl _
  · rw [respelled_bracketed absent]
    split
    · exact List.sublist_append_left _ _
    · exact (List.Sublist.refl _).append ((List.Sublist.refl _).append
        ((join_argumentsIn_sublist inner).append (List.Sublist.refl _)))

theorem respelled_head (name : Text) {u : CodeUnit} (first : (respelled name).head? = some u) :
    name.head? = some u := by
  rcases parts_cases name with same | ⟨base, inner, absent, rfl⟩
  · rwa [respelled, same] at first
  · rw [respelled_bracketed absent] at first
    cases base with
    | nil =>
        split at first
        · cases first
        · exact first
    | cons v rest =>
        split at first <;> exact first

/-- Filled arguments without blanks around them are written as they are. -/
theorem respelled_pieces {base : Text} (absent : ('[' : CodeUnit) ∉ base) {pieces : List Text}
    (filled : pieces ≠ []) (parted : Parted pieces)
    (tight : ∀ piece ∈ pieces, piece ≠ [] ∧ Text.Trimmed piece) :
    respelled (base ++ ("[" ++ (Text.join "," pieces ++ "]"))) =
      base ++ ("[" ++ (Text.join "," pieces ++ "]")) := by
  have split := splitArguments_join parted filled
  obtain ⟨same, whole⟩ := @join_argumentsIn (Text.join "," pieces) (by rwa [split])
  rw [respelled_bracketed absent, if_neg (by rwa [same, split]), whole]

end Names

/-! Array suffixes. -/

section Suffixes

/-- A name with some array suffixes. -/
def suffixed (name : Text) : Nat → Text
  | 0 => name
  | count + 1 => suffixed name count ++ "[]"

/-- What some array suffixes add in front of the last bracket. -/
def seams : Nat → Text
  | 0 => []
  | count + 1 => seams count ++ "]["

theorem suffixed_bracketed (base inner : Text) (count : Nat) :
    suffixed (base ++ ("[" ++ (inner ++ "]"))) count =
      base ++ ("[" ++ ((inner ++ seams count) ++ "]")) := by
  induction count with
  | zero => rw [suffixed, seams, List.append_nil]
  | succ count ih =>
      have seam : Text.ofString "]" ++ Text.ofString "[]" = Text.ofString "][" ++ Text.ofString "]" := rfl
      rw [suffixed, ih, seams]
      simp only [List.append_assoc, seam]

theorem suffixed_succ (name : Text) (count : Nat) :
    suffixed name (count + 1) = suffixed (name ++ "[]") count := by
  induction count with
  | zero => rfl
  | succ count ih => rw [suffixed, ih, suffixed]

theorem suffixed_bracketless (name : Text) (count : Nat) :
    suffixed name (count + 1) = name ++ ("[" ++ (seams count ++ "]")) :=
  (suffixed_succ name count).trans (suffixed_bracketed name [] count)

theorem seams_depth (depth : Int) (count : Nat) :
    depthAfter depth (seams count) = depth ∧ Unparted depth (seams count) := by
  induction count with
  | zero => exact ⟨rfl, trivial⟩
  | succ count ih =>
      have level : depthAfter depth "][" = depth - 1 + 1 := rfl
      rw [seams, depthAfter_append, unparted_append, ih.1, level]
      exact ⟨Int.sub_add_cancel depth 1, ih.2, trivial⟩

theorem seams_unblank (count : Nat) : Text.Unblank (seams count) := by
  have seam : Text.Unblank "][" := List.forall_iff_forall_mem.mp (by decide)
  induction count with
  | zero => exact fun _ listed => nomatch listed
  | succ count ih => exact List.forall_mem_append.mpr ⟨ih, seam⟩

theorem join_extended (first : List Text) (last more : Text) :
    Text.join "," (first ++ [last]) ++ more = Text.join "," (first ++ [last ++ more]) := by
  induction first with
  | nil => rw [List.nil_append, List.nil_append, Text.join_singleton, Text.join_singleton]
  | cons piece rest ih =>
      obtain ⟨next, others, split⟩ := List.exists_cons_of_ne_nil (List.concat_ne_nil last rest)
      obtain ⟨next', others', split'⟩ := List.exists_cons_of_ne_nil (List.concat_ne_nil (last ++ more) rest)
      rw [List.cons_append, List.cons_append, split, split', Catalog.join_cons_cons,
        Catalog.join_cons_cons, List.append_assoc, ← split, ← split', ih]

theorem parted_extended {first : List Text} {last more : Text} (parted : Parted (first ++ [last]))
    (unparted : ∀ depth, Unparted depth more) : Parted (first ++ [last ++ more]) := by
  induction first with
  | nil => exact ⟨(unparted_append ..).mpr ⟨parted.1, unparted _⟩, fun next => absurd rfl next, trivial⟩
  | cons piece rest ih => exact ⟨parted.1, fun _ => parted.2.1 (by simp), ih parted.2.2⟩

/-- Behind arguments all suffixes are read as they are written. -/
theorem respelled_suffixed {base : Text} (absent : ('[' : CodeUnit) ∉ base) {first : List Text}
    {last : Text} (parted : Parted (first ++ [last]))
    (tight : ∀ piece ∈ first ++ [last], piece ≠ [] ∧ Text.Unblank piece)
    (count : Nat) :
    respelled (suffixed (base ++ ("[" ++ (Text.join "," (first ++ [last]) ++ "]"))) count) =
      suffixed (base ++ ("[" ++ (Text.join "," (first ++ [last]) ++ "]"))) count := by
  rw [suffixed_bracketed, join_extended]
  refine respelled_pieces absent (List.append_ne_nil_of_right_ne_nil _ (List.cons_ne_nil _ _))
    (parted_extended parted fun depth => (seams_depth depth count).2) ?_
  intro piece listed
  rcases List.mem_append.mp listed with isFirst | isLast
  · obtain ⟨filled, unblank⟩ := tight piece (List.mem_append_left _ isFirst)
    exact ⟨filled, unblank.trimmed⟩
  · obtain rfl := List.mem_singleton.mp isLast
    obtain ⟨filled, unblank⟩ := tight last (List.mem_append_right _ (List.mem_singleton_self _))
    have whole : Text.Unblank (last ++ seams count) :=
      List.forall_mem_append.mpr ⟨unblank, seams_unblank count⟩
    exact ⟨fun none => filled (List.append_eq_nil_iff.mp none).1, whole.trimmed⟩

/-- Of two or more suffixes without arguments in front of them none is lost. -/
theorem respelled_suffixed_bracketless {name : Text} (absent : ('[' : CodeUnit) ∉ name) (count : Nat) :
    respelled (suffixed name (count + 2)) = suffixed name (count + 2) := by
  have filled : seams (count + 1) ≠ [] := fun none =>
    List.cons_ne_nil _ _ (List.append_eq_nil_iff.mp none).2
  rw [suffixed_bracketless, ← Text.join_singleton "," (seams (count + 1))]
  refine respelled_pieces absent (List.cons_ne_nil _ _) ?_ ?_
  · exact ⟨(seams_depth 0 _).2, fun more => absurd rfl more, trivial⟩
  · exact List.forall_mem_singleton.mpr ⟨filled, (seams_unblank _).trimmed⟩

theorem respelled_array {name : Text} (absent : ('[' : CodeUnit) ∉ name) :
    respelled (suffixed name 1) = name := by
  rw [suffixed_bracketless, respelled_bracketed absent]
  rfl

end Suffixes

end TypeName

end TabCompletion
