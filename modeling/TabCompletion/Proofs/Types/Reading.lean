import Mathlib.Data.List.Induction
import Mathlib.Data.List.Infix
import TabCompletion.Proofs.Types.Arrays

/-!
Names read back from their notation. An argument may hold brackets and commas of its own, as long as its
brackets balance and its commas stand between them; then the commas that part the arguments are the only
ones outside of brackets, and no argument makes a name look like an array. So the base name, the arguments
and the array suffix of a name are read as they were written, with any blanks around the arguments.
-/

namespace TabCompletion

namespace Text

instance (t : Text) : Decidable (Trimmed t) :=
  decidable_of_iff (t.head?.all (!isSpace ·) = true ∧ t.getLast?.all (!isSpace ·) = true) (by
    simp only [Option.all_eq_true, Bool.not_eq_true']
    exact Iff.rfl)

/-- Blanks around a text are trimmed, and nothing else. -/
theorem trim_padded {before t behind : Text} (filled : t ≠ []) (trimmed : Trimmed t)
    (blank : ∀ u ∈ before, isSpace u = true) (blank' : ∀ u ∈ behind, isSpace u = true) :
    trim (before ++ t ++ behind) = t := by
  have front : trimLeft (before ++ t ++ behind) = t ++ behind := by
    rw [List.append_assoc, trimLeft, List.dropWhile_append_of_pos blank]
    refine trimLeft_eq fun u first => trimmed.1 u ?_
    rwa [List.head?_append_of_ne_nil _ filled] at first
  have back : trimLeft (behind.reverse ++ t.reverse) = t.reverse := by
    rw [trimLeft, List.dropWhile_append_of_pos fun u listed => blank' u (List.mem_reverse.mp listed)]
    refine trimLeft_eq fun u first => trimmed.2 u ?_
    rwa [List.head?_reverse] at first
  rw [trim, front, trimRight, List.reverse_append, ← trimLeft, back, List.reverse_reverse]

end Text

namespace TypeName

/-! Brackets and commas of an argument. -/

section Level

/-- As many brackets close as open, and nowhere have more of them closed than opened. -/
structure Balanced (t : Text) : Prop where
  closed : t.count (']' : CodeUnit) = t.count ('[' : CodeUnit)
  ahead : ∀ front : Text, front <+: t → front.count (']' : CodeUnit) ≤ front.count ('[' : CodeUnit)

/-- No comma stands outside of brackets. -/
def Sheltered (t : Text) : Prop :=
  ∀ front : Text, front ++ [(',' : CodeUnit)] <+: t →
    front.count (']' : CodeUnit) ≠ front.count ('[' : CodeUnit)

instance (t : Text) : Decidable (Balanced t) :=
  decidable_of_iff (t.count (']' : CodeUnit) = t.count ('[' : CodeUnit) ∧
      ∀ front ∈ t.inits, front.count (']' : CodeUnit) ≤ front.count ('[' : CodeUnit))
    ⟨fun ⟨closed, ahead⟩ => ⟨closed, fun front leads => ahead front ((List.mem_inits ..).mpr leads)⟩,
      fun ⟨closed, ahead⟩ => ⟨closed, fun front listed => ahead front ((List.mem_inits ..).mp listed)⟩⟩

instance (t : Text) : Decidable (Sheltered t) :=
  decidable_of_iff (∀ front ∈ t.inits, front ++ [(',' : CodeUnit)] <+: t →
      front.count (']' : CodeUnit) ≠ front.count ('[' : CodeUnit))
    ⟨fun sheltered front leads =>
        sheltered front ((List.mem_inits ..).mpr ((List.prefix_append ..).trans leads)) leads,
      fun sheltered front _ leads => sheltered front leads⟩

/-- The depth of the scan is the number of brackets that are open. -/
theorem depthAfter_eq (depth : Int) (t : Text) :
    depthAfter depth t = depth + t.count ('[' : CodeUnit) - t.count (']' : CodeUnit) := by
  induction t generalizing depth with
  | nil => simp [depthAfter]
  | cons u rest ih =>
      rw [depthAfter, List.count_cons, List.count_cons]
      by_cases opens : (u == '[') = true
      · have noClosing : ¬(u == ']') = true := by
          rw [beq_iff_eq.mp opens]
          decide
        rw [if_pos opens, if_pos opens, if_neg noClosing, ih]
        omega
      · rw [if_neg opens, if_neg opens]
        split
        · rw [ih]
          omega
        · rw [ih]
          omega

theorem depthAfter_eq_zero_iff (t : Text) :
    depthAfter 0 t = 0 ↔ t.count (']' : CodeUnit) = t.count ('[' : CodeUnit) := by
  rw [depthAfter_eq]
  omega

theorem unparted_unit (depth : Int) (u : CodeUnit) :
    Unparted depth [u] ↔ (u = (',' : CodeUnit) → depth ≠ 0) := by
  rw [Unparted]
  split
  · rename_i opens
    exact iff_of_true trivial fun parts => absurd (parts.symm.trans (beq_iff_eq.mp opens)) (by decide)
  · split
    · rename_i closes
      exact iff_of_true trivial fun parts => absurd (parts.symm.trans (beq_iff_eq.mp closes)) (by decide)
    · rw [Unparted, and_true, Bool.and_eq_false_imp, beq_iff_eq]
      exact imp_congr_right fun _ => beq_eq_false_iff_ne

/-- Arguments are parted at the commas that the scan meets at depth zero. -/
theorem unparted_iff (depth : Int) (t : Text) :
    Unparted depth t ↔ ∀ front : Text, front ++ [(',' : CodeUnit)] <+: t → depthAfter depth front ≠ 0 := by
  -- From the end, as it is what stands before a comma that tells whether the comma parts.
  induction t using List.reverseRecOn with
  | nil =>
      refine iff_of_true trivial fun front leads => ?_
      exact absurd (List.append_eq_nil_iff.mp (List.prefix_nil.mp leads)).2 (List.cons_ne_nil _ _)
  | append_singleton rest u ih =>
      rw [unparted_append, ih, unparted_unit]
      constructor
      · rintro ⟨within, last⟩ front leads
        rcases List.prefix_concat_iff.mp leads with whole | leads
        · obtain ⟨rfl, same⟩ := List.append_inj' whole rfl
          exact last (List.cons.inj same).1.symm
        · exact within front leads
      · intro apart
        refine ⟨fun front leads => apart front (leads.trans (List.prefix_append ..)), ?_⟩
        rintro rfl
        exact apart rest (List.prefix_refl _)

theorem sheltered_iff (t : Text) : Sheltered t ↔ Unparted 0 t := by
  rw [unparted_iff]
  exact forall_congr' fun front => imp_congr_right fun _ => (not_congr (depthAfter_eq_zero_iff front)).symm

theorem prefix_append_cases {front s t : Text} (leads : front <+: s ++ t) :
    front <+: s ∨ ∃ more, more <+: t ∧ front = s ++ more := by
  rcases List.prefix_or_prefix_of_prefix leads (List.prefix_append s t) with within | ⟨more, rfl⟩
  · exact Or.inl within
  · exact Or.inr ⟨more, (List.prefix_append_right_inj s).mp leads, rfl⟩

theorem Balanced.append {s t : Text} (first : Balanced s) (second : Balanced t) : Balanced (s ++ t) where
  closed := by rw [List.count_append, List.count_append, first.closed, second.closed]
  ahead front leads := by
    rcases prefix_append_cases leads with within | ⟨more, within, rfl⟩
    · exact first.ahead front within
    · rw [List.count_append, List.count_append, first.closed]
      exact Nat.add_le_add_left (second.ahead more within) _

theorem plain_balanced {t : Text}
    (plain : ∀ u ∈ t, u ≠ ('[' : CodeUnit) ∧ u ≠ (']' : CodeUnit) ∧ u ≠ (',' : CodeUnit)) :
    Balanced t where
  closed := by
    rw [List.count_eq_zero.mpr fun listed => (plain _ listed).2.1 rfl,
      List.count_eq_zero.mpr fun listed => (plain _ listed).1 rfl]
  ahead front leads := by
    rw [List.count_eq_zero.mpr fun listed => (plain _ (leads.subset listed)).2.1 rfl]
    exact Nat.zero_le _

/-- An opening bracket at the end would stay open. -/
theorem Balanced.last {t : Text} (balanced : Balanced t) : t.getLast? ≠ some ('[' : CodeUnit) := by
  intro opens
  obtain ⟨front, rfl⟩ := List.getLast?_eq_some_iff.mp opens
  have level := balanced.closed
  have ahead := balanced.ahead front (List.prefix_append ..)
  rw [List.count_append, List.count_append, List.count_singleton_self, List.count_singleton,
    if_neg (by decide)] at level
  omega

/-- What can stand for an argument between two commas. -/
structure Argument (t : Text) : Prop where
  filled : t ≠ []
  trimmed : Text.Trimmed t
  balanced : Balanced t
  sheltered : Sheltered t

instance (t : Text) : Decidable (Argument t) :=
  decidable_of_iff (t ≠ [] ∧ Text.Trimmed t ∧ Balanced t ∧ Sheltered t)
    ⟨fun ⟨filled, trimmed, balanced, sheltered⟩ => ⟨filled, trimmed, balanced, sheltered⟩,
      fun ⟨filled, trimmed, balanced, sheltered⟩ => ⟨filled, trimmed, balanced, sheltered⟩⟩

end Level

/-! Arguments between brackets. -/

section Placing

/-- An argument with the blanks around it. -/
structure Placed where
  before : Text
  argument : Text
  behind : Text
  isArgument : Argument argument
  blankBefore : ∀ u ∈ before, Text.isSpace u = true
  blankBehind : ∀ u ∈ behind, Text.isSpace u = true

/-- The argument as it is written. -/
def Placed.text (placed : Placed) : Text := placed.before ++ placed.argument ++ placed.behind

theorem Placed.trim_text (placed : Placed) : Text.trim placed.text = placed.argument :=
  Text.trim_padded placed.isArgument.filled placed.isArgument.trimmed placed.blankBefore
    placed.blankBehind

theorem Placed.balanced (placed : Placed) : Balanced placed.text :=
  ((plain_balanced (blank_plain placed.blankBefore)).append placed.isArgument.balanced).append
    (plain_balanced (blank_plain placed.blankBehind))

theorem Placed.unparted (placed : Placed) : Unparted 0 placed.text := by
  have front := plain_depth 0 (blank_plain placed.blankBefore)
  rw [text, unparted_append, unparted_append, front.1]
  exact ⟨⟨front.2, (sheltered_iff _).mp placed.isArgument.sheltered⟩,
    (plain_depth _ (blank_plain placed.blankBehind)).2⟩

variable {arguments : List Placed}

theorem join_placed_balanced : Balanced (Text.join "," (arguments.map Placed.text)) := by
  refine Text.join_closed (by decide) (by decide) Balanced.append fun piece listed => ?_
  obtain ⟨placed, -, rfl⟩ := List.mem_map.mp listed
  exact placed.balanced

theorem argumentsIn_placed (filled : arguments ≠ []) :
    argumentsIn (Text.join "," (arguments.map Placed.text)) = arguments.map Placed.argument := by
  have parted : Parted (arguments.map Placed.text) := parted_of_level fun piece listed => by
    obtain ⟨placed, -, rfl⟩ := List.mem_map.mp listed
    exact ⟨(depthAfter_eq_zero_iff _).mpr placed.balanced.closed, placed.unparted⟩
  rw [argumentsIn, splitArguments_join parted (List.map_eq_nil_iff.not.mpr filled), List.map_map,
    List.map_congr_left fun placed _ => placed.trim_text, List.filter_eq_self]
  intro argument listed
  obtain ⟨placed, -, rfl⟩ := List.mem_map.mp listed
  rw [Bool.not_eq_true', List.isEmpty_eq_false_iff]
  exact placed.isArgument.filled

theorem join_placed_filled (filled : arguments ≠ []) :
    Text.join "," (arguments.map Placed.text) ≠ [] := by
  intro none
  have read := argumentsIn_placed filled
  rw [none] at read
  exact filled (List.map_eq_nil_iff.mp read.symm)

end Placing

/-! Whole names. -/

section Names

/-- Filled brackets at the end of a name are no array suffix. -/
theorem bracketed_unsuffixed (base : Text) {inner : Text} (filled : inner ≠ []) (balanced : Balanced inner) :
    ¬Text.ofString "[]" <:+ base ++ ("[" ++ (inner ++ "]")) := by
  rintro ⟨front, same⟩
  have suffix : front ++ Text.ofString "[]" = (front ++ [('[' : CodeUnit)]) ++ Text.ofString "]" := by
    rw [List.append_assoc]
    rfl
  rw [suffix, ← List.append_assoc, ← List.append_assoc] at same
  have last := congrArg List.getLast? (List.append_cancel_right same)
  rw [List.getLast?_concat, List.getLast?_append_of_ne_nil _ filled] at last
  exact balanced.last last.symm

/-- Base name, arguments and array suffix are read as they were written. -/
theorem parse_placed {base : Text} (led : Text.Led base) (absent : ('[' : CodeUnit) ∉ base)
    {arguments : List Placed} (filled : arguments ≠ []) (isArray : Bool) :
    parse (base ++ ("[" ++ (Text.join "," (arguments.map Placed.text) ++ "]")) ++
        (if isArray then Text.ofString "[]" else [])) =
      { baseName := base, arguments := arguments.map Placed.argument, isArray } := by
  have trimmed := led.trimmed_bracketed (Text.join "," (arguments.map Placed.text))
  have apart := parts_bracketed absent (Text.join "," (arguments.map Placed.text))
  rw [argumentsIn_placed filled] at apart
  -- A suffix comes off and leaves the name; where there is none, the last argument does not look like one.
  cases isArray with
  | true => rw [if_pos rfl, parse_suffixed trimmed.1.trim_suffixed, apart]
  | false =>
      have unsuffixed := bracketed_unsuffixed base (join_placed_filled filled) join_placed_balanced
      rw [if_neg Bool.false_ne_true, List.append_nil, parse_unsuffixed (by rwa [trimmed.trim_eq]),
        trimmed.trim_eq, apart]

theorem parts_unclosed {name : Text} (unclosed : ¬Text.ofString "]" <:+ name) :
    parts name = { baseName := name, arguments := [], isArray := false } := by
  have closes : Text.endsWith name "]" = false :=
    Bool.eq_false_iff.mpr fun closed => unclosed (List.isSuffixOf_iff_suffix.mp closed)
  rw [parts, closes]
  cases Text.indexOf? "[" name <;> rfl

/-- A name that no bracket closes is a base name, with an array suffix or without. -/
theorem parse_unclosed {base : Text} (trimmed : Text.Trimmed base) (unclosed : ¬Text.ofString "]" <:+ base) :
    parse base = { baseName := base, arguments := [], isArray := false } ∧
      parse (base ++ "[]") = { baseName := base, arguments := [], isArray := true } := by
  have unsuffixed : ¬Text.ofString "[]" <:+ Text.trim base := by
    rw [trimmed.trim_eq]
    exact fun suffixed => unclosed (List.IsSuffix.trans ⟨"[", rfl⟩ suffixed)
  constructor
  · rw [parse_unsuffixed unsuffixed, trimmed.trim_eq, parts_unclosed unclosed]
  · rw [parse_suffixed trimmed.1.trim_suffixed, parts_unclosed unclosed]

/-- Names are read as they are written: with arguments in brackets, whatever these hold in brackets of
their own, with blanks around them and with an array suffix; and without arguments, with an array suffix
or without. -/
theorem names_read_back :
    (∀ (base : Text) (arguments : List Placed) (isArray : Bool), Text.Led base →
        ('[' : CodeUnit) ∉ base → arguments ≠ [] →
          parse (base ++ ("[" ++ (Text.join "," (arguments.map Placed.text) ++ "]")) ++
              (if isArray then Text.ofString "[]" else [])) =
            { baseName := base, arguments := arguments.map Placed.argument, isArray }) ∧
      ∀ base : Text, Text.Trimmed base → ¬Text.ofString "]" <:+ base →
        parse base = { baseName := base, arguments := [], isArray := false } ∧
          parse (base ++ "[]") = { baseName := base, arguments := [], isArray := true } :=
  ⟨fun _ _ isArray led absent filled => parse_placed led absent filled isArray,
    fun _ trimmed unclosed => parse_unclosed trimmed unclosed⟩

/-- A table of arrays of pairs with blanks around its arguments, and a table that was left open. -/
theorem table_of_pairs_read_back :
    Argument "Pair[int[],List[long]][]" ∧ Argument "text" ∧
      parse "Table[ Pair[int[],List[long]][] ,  text][]" =
        { baseName := "Table", arguments := ["Pair[int[],List[long]][]", "text"], isArray := true } ∧
      Text.Trimmed "Table[int" ∧
        parse "Table[int" = { baseName := "Table[int", arguments := [], isArray := false } ∧
        parse "Table[int[]" = { baseName := "Table[int", arguments := [], isArray := true } := by
  have pairs : Argument "Pair[int[],List[long]][]" := by decide
  have plain : Argument "text" := by decide
  have blank : ∀ u ∈ Text.ofString " ", Text.isSpace u = true :=
    List.forall_iff_forall_mem.mp (by decide)
  have blanks : ∀ u ∈ Text.ofString "  ", Text.isSpace u = true :=
    List.forall_iff_forall_mem.mp (by decide)
  have led : Text.Trimmed "Table" := by decide
  have whole := names_read_back.1 "Table"
    [⟨" ", _, " ", pairs, blank, blank⟩, ⟨"  ", _, [], plain, blanks, nofun⟩]
    true led.1 (by decide) (List.cons_ne_nil _ _)
  have leftOpen : Text.Trimmed "Table[int" := by decide
  exact ⟨pairs, plain, whole, leftOpen, names_read_back.2 "Table[int" leftOpen (by decide)⟩

end Names

end TypeName

end TabCompletion
