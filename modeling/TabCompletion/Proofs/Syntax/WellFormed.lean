import TabCompletion.Proofs.Syntax.Numbering
import TabCompletion.Syntax.CommandLine

/-!
Well-formed parses: every offset that a parse mentions lies in the input. All conditions can be
computed. What the command-line reader gives is well-formed for every input.
-/

namespace TabCompletion

namespace Extent

/-- The extent is ordered and ends in the input. -/
def isWithin (input : Text) (e : Extent) : Bool := e.start ≤ e.stop && e.stop ≤ input.length

/-- Some cursor touches both extents. -/
def meets (a b : Extent) : Bool := a.start < b.stop && b.start < a.stop

/-- The two extents cover the same offsets. -/
def sameSpan (a b : Extent) : Bool := a.start == b.start && a.stop == b.stop

theorem isWithin_iff (input : Text) (e : Extent) :
    e.isWithin input = true ↔ e.start ≤ e.stop ∧ e.stop ≤ input.length := by
  simp [isWithin]

theorem touches_iff (e : Extent) (cursor : Int) :
    e.touches cursor = true ↔ (e.start : Int) < cursor ∧ cursor ≤ e.stop := by
  simp [touches]

theorem meets_of_touches {a b : Extent} {cursor : Int} (left : a.touches cursor = true)
    (right : b.touches cursor = true) : a.meets b = true := by
  rw [touches_iff] at left right
  simp only [meets, Bool.and_eq_true, decide_eq_true_eq]
  omega

end Extent

mutual

/-- The extents of a written type and of its parts. -/
def WrittenType.extents : WrittenType → List Extent
  | .simple _ extent => [extent]
  | .generic _ extent definition arguments => extent :: (definition.extents ++ extentsOf arguments)
  | .array _ extent element => extent :: element.extents

def extentsOf : List WrittenType → List Extent
  | [] => []
  | name :: rest => name.extents ++ extentsOf rest

end

/-- What a node says about offsets lies in the input: its own extent, those of the type name and of
the operator that it writes, and the place of an attribute argument's name. -/
def Node.isPlaced (input : Text) (n : Node) : Bool :=
  n.extent.isWithin input && match n.form with
    | .attribute written _ _ | .typeConstraint written | .typeExpression written =>
        written.extents.all (·.isWithin input)
    | .binary _ _ _ operatorExtent => operatorExtent.isWithin input
    | .namedAttributeArgument name _ => name.length ≤ n.stop - n.start
    | _ => true

/-- The operator of a product is a token of one unit. -/
def Node.isProductPlaced (tokens : List Token) (n : Node) : Bool :=
  match n.form with
  | .binary operator _ _ e =>
      operator != Text.ofString "*" ||
        (e.stop == e.start + 1 && tokens.any fun token => token.extent.sameSpan e)
  | _ => true

/-- The text of a token is the input over its extent. -/
def Token.isPlaced (input : Text) (token : Token) : Bool :=
  token.extent.isWithin input &&
    token.text == Text.between input token.extent.start token.extent.stop

namespace Parse

/-- The nodes of a parse, with their numbers. -/
def nodes (p : Parse) (input : Text) : List Node := (Script.ofTree input p.tree).all

/-- The offsets of a parse fit its input. -/
structure WellFormed (p : Parse) (input : Text) : Prop where
  tokens : ∀ token ∈ p.tokens, token.isPlaced input = true
  root : p.tree.start = 0 ∧ p.tree.stop = input.length
  nodes : ∀ n ∈ p.nodes input, n.isPlaced input = true
  products : ∀ n ∈ p.nodes input, n.isProductPlaced p.tokens = true

end Parse

/-- Tokens that may be words. -/
def Token.isWord (token : Token) : Bool :=
  token.kind == .multiply || token.kind == .generic || token.kind == .identifier

/-- The name of a `using assembly` statement covers the word token that it was read from. -/
def Node.isNameAligned (tokens : List Token) (n : Node) : Bool :=
  match n.form with
  | .usingStatement .assembly (some name) => tokens.all fun token =>
      !(token.isWord && token.extent.meets name.extent) || token.extent.sameSpan name.extent
  | _ => true

/-- Tokens and nodes agree where the analysis takes one for the other. -/
structure Parse.Aligned (p : Parse) (input : Text) : Prop where
  stars : ∀ token ∈ p.tokens, token.kind = .multiply →
    token.extent.stop = token.extent.start + 1
  names : ∀ n ∈ p.nodes input, n.isNameAligned p.tokens = true

/-! Command lines. -/

namespace CommandLine

/-- The spans lie between the start of the first word and the end of the text, in order and apart. The
two parts of the state, outside and inside a word, are followed together. -/
theorem spans_bounds (offset : Nat) (opened : Option (Nat × Option CodeUnit)) (rest : Text)
    (earlier : ∀ start quote, opened = some (start, quote) → start ≤ offset) :
    (∀ span ∈ spans offset opened rest,
      (opened.map Prod.fst).getD offset ≤ span.1 ∧ span.1 ≤ span.2 ∧ span.2 ≤ offset + rest.length) ∧
      (spans offset opened rest).Pairwise fun a b => a.2 < b.1 := by
  fun_induction spans offset opened rest with
  | case1 offset => simp
  | case2 offset start quote => simpa using earlier start quote rfl
  | case3 offset u rest isSpace ih =>
      obtain ⟨bounds, ordered⟩ := ih (by simp)
      refine ⟨fun span found => ?_, ordered⟩
      have := bounds span found
      simp only [Option.map_none, Option.getD_none, List.length_cons] at this ⊢
      omega
  | case4 offset u rest isWord ih =>
      obtain ⟨bounds, ordered⟩ := ih (by simp)
      refine ⟨fun span found => ?_, ordered⟩
      have := bounds span found
      simp only [Option.map_some, Option.map_none, Option.getD_some, Option.getD_none,
        List.length_cons] at this ⊢
      omega
  | case5 offset start quote u rest ends ih =>
      obtain ⟨bounds, ordered⟩ := ih (by simp)
      have started := earlier start quote rfl
      constructor
      · intro span found
        rcases List.mem_cons.mp found with same | later
        · subst same
          simp only [Option.map_some, Option.getD_some, List.length_cons]
          omega
        · have := bounds span later
          simp only [Option.map_some, Option.map_none, Option.getD_some, Option.getD_none,
            List.length_cons] at this ⊢
          omega
      · refine List.pairwise_cons.mpr ⟨fun span later => ?_, ordered⟩
        have := bounds span later
        simp only [Option.map_none, Option.getD_none] at this
        simp only
        omega
  | case6 offset start quote u rest continues ih =>
      have started := earlier start quote rfl
      obtain ⟨bounds, ordered⟩ := ih (by simp; omega)
      refine ⟨fun span found => ?_, ordered⟩
      have := bounds span found
      simp only [Option.map_some, Option.getD_some, List.length_cons] at this ⊢
      omega

theorem ofSource_isWithin {source : Text} {start stop : Nat} (ordered : start ≤ stop)
    (bounded : stop ≤ source.length) : (Extent.ofSource source start stop).isWithin source = true :=
  (Extent.isWithin_iff _ _).mpr ⟨ordered, bounded⟩

/-- The extents of the words. -/
def wordExtents (source : Text) : List Extent :=
  (spans 0 none source).map fun (start, stop) => Extent.ofSource source start stop

theorem wordExtents_isWithin {source : Text} {extent : Extent} (isWord : extent ∈ wordExtents source) :
    extent.isWithin source = true ∧
      extent.text = Text.between source extent.start extent.stop := by
  obtain ⟨span, found, same⟩ := List.mem_map.mp isWord
  subst same
  have bounds := (spans_bounds 0 none source (by simp)).1 span found
  exact ⟨ofSource_isWithin bounds.2.1 (by omega), rfl⟩

theorem wordExtents_apart (source : Text) :
    (wordExtents source).Pairwise fun a b => a.stop < b.start :=
  List.pairwise_map.mpr (spans_bounds 0 none source (by simp)).2

theorem wordExtents_starts (source : Text) :
    (wordExtents source).Pairwise fun a b => a.start ≤ b.start := by
  refine (wordExtents_apart source).imp_of_mem fun {a b} isWord _ apart => ?_
  have ordered := (Extent.isWithin_iff _ _).mp (wordExtents_isWithin isWord).1
  omega

/-- Two words are the same or apart. -/
theorem word_apart {source : Text} {a b : Extent} (isWord : a ∈ wordExtents source)
    (isOther : b ∈ wordExtents source) : a = b ∨ a.stop < b.start ∨ b.stop < a.start := by
  obtain ⟨i, inside, rfl⟩ := List.mem_iff_getElem.mp isWord
  obtain ⟨j, inside', rfl⟩ := List.mem_iff_getElem.mp isOther
  have apart := List.pairwise_iff_getElem.mp (wordExtents_apart source)
  rcases Nat.lt_trichotomy i j with before | same | after
  · exact Or.inr (Or.inl (apart i j inside inside' before))
  · subst same
    exact Or.inl rfl
  · exact Or.inr (Or.inr (apart j i inside' inside after))

/-- From the first word on, a line goes on to its last word. -/
theorem wordExtents_ordered {source : Text} {first last : Extent} {rest : List Extent}
    (words : wordExtents source = first :: rest) (ends : (wordExtents source).getLast? = some last) :
    first.start ≤ last.stop := by
  have ordered := wordExtents_starts source
  have isWord := List.mem_of_getLast? ends
  have within := (Extent.isWithin_iff _ _).mp (wordExtents_isWithin isWord).1
  rw [words] at ordered isWord
  rcases List.mem_cons.mp isWord with same | later
  · subst same
    exact within.1
  · exact Nat.le_trans ((List.pairwise_cons.mp ordered).1 last later) within.1

/-- Forms without parts that a command line is made of. -/
def isPlain : Form → Bool
  | .stringConstant _ _ | .commandParameter _ none | .variable _ _ | .constant _ => true
  | _ => false

theorem element_isPlain (extent : Extent) (isCommandName : Bool) :
    isPlain (element extent isCommandName).1 = true := by
  simp only [element]
  repeat' split
  all_goals rfl

/-- The token of a word covers the word; it is never a star. -/
theorem element_token (extent : Extent) (isCommandName : Bool) :
    (element extent isCommandName).2.extent = extent ∧
      (element extent isCommandName).2.text = extent.text ∧
      (element extent isCommandName).2.kind ≠ .multiply := by
  simp only [element]
  repeat' split
  all_goals simp

theorem number_plain {form : Form} (plain : isPlain form = true) (first : Nat) :
    form.number first = (form, first) := by
  cases form with
  | commandParameter name argument =>
      cases argument with
      | none => rfl
      | some node => simp [isPlain] at plain
  | stringConstant => rfl
  | «variable» => rfl
  | constant => rfl
  | _ => simp [isPlain] at plain

theorem children_plain {form : Form} (plain : isPlain form = true) : form.children = [] := by
  cases form with
  | commandParameter name argument =>
      cases argument with
      | none => rfl
      | some node => simp [isPlain] at plain
  | stringConstant => rfl
  | «variable» => rfl
  | constant => rfl
  | _ => simp [isPlain] at plain

/-- Nodes without parts keep everything but their numbers. -/
theorem mem_numberList_plain {nodes : List Node} (plain : ∀ n ∈ nodes, isPlain n.form = true)
    (first : Nat) {m : Node} (numbered : m ∈ (numberList nodes first).1.flatMap Node.preorder) :
    ∃ n ∈ nodes, m.extent = n.extent ∧ m.form = n.form := by
  induction nodes generalizing first with
  | nil =>
      have empty : (numberList [] first).1 = [] := rfl
      simp [empty] at numbered
  | cons node rest ih =>
      obtain ⟨id, extent, form⟩ := node
      have head : isPlain form = true := plain _ List.mem_cons_self
      have unfolded : numberList (.mk id extent form :: rest) first =
          (.mk first extent (form.number (first + 1)).1 ::
            (numberList rest (form.number (first + 1)).2).1,
            (numberList rest (form.number (first + 1)).2).2) := rfl
      rw [unfolded, number_plain head, List.flatMap_cons, List.mem_append, Node.preorder_eq] at numbered
      rcases numbered with here | later
      · simp only [Node.children, Node.form, children_plain head, List.flatMap_nil,
          List.mem_singleton] at here
        subst here
        exact ⟨_, List.mem_cons_self, rfl, rfl⟩
      · obtain ⟨n, isNode, same⟩ :=
          ih (fun n isNode => plain n (List.mem_cons_of_mem _ isNode)) _ later
        exact ⟨n, List.mem_cons_of_mem _ isNode, same⟩

/-- The elements of a command line with their extents. -/
def wordNodes (source : Text) : List Node :=
  (wordExtents source).zipIdx.map fun (extent, i) => Node.new extent (element extent (i == 0)).1

/-- The one statement of a command line, from its first word to its last. -/
def statement (source : Text) (first last : Extent) : Node :=
  let whole := Extent.ofSource source first.start last.stop
  Node.new whole (.pipeline [Node.new whole (.command (wordNodes source) none [])])

theorem parse_tree (source : Text) :
    (parse source).tree = Node.new (Extent.ofSource source 0 source.length)
      (.scriptBlock none [] (match wordExtents source, (wordExtents source).getLast? with
        | first :: _, some last => [statement source first last]
        | _, _ => [])) := by
  simp only [parse, statement, wordNodes, List.map_map]
  rfl

theorem parse_tokens (source : Text) :
    (parse source).tokens =
      ((wordExtents source).zipIdx.map fun (extent, i) => (element extent (i == 0)).2) ++
        [{ kind := .endOfInput, text := [], extent := ⟨source.length, source.length, []⟩ }] := by
  simp only [parse, List.map_map]
  rfl

theorem mem_wordNodes {source : Text} {n : Node} (isWord : n ∈ wordNodes source) :
    ∃ extent ∈ wordExtents source, ∃ isFirst,
      n.extent = extent ∧ n.form = (element extent isFirst).1 := by
  obtain ⟨⟨extent, i⟩, found, rfl⟩ := List.mem_map.mp isWord
  exact ⟨extent, List.fst_mem_of_mem_zipIdx found, i == 0, rfl, rfl⟩

theorem wordNodes_plain {source : Text} {n : Node} (isWord : n ∈ wordNodes source) :
    isPlain n.form = true := by
  obtain ⟨extent, -, isFirst, -, form⟩ := mem_wordNodes isWord
  rw [form]
  exact element_isPlain extent isFirst

/-- A node of a command line: the root, the statement or its command, or the element of a word. -/
inductive LineNode (source : Text) (n : Node) : Prop
  | root (kind : n.kind = .scriptBlock)
      (extent : n.extent = Extent.ofSource source 0 source.length)
  | around (kind : n.kind = .pipeline ∨ n.kind = .command)
      (within : n.extent.isWithin source = true)
  | word (isWord : n.extent ∈ wordExtents source) (isFirst : Bool)
      (form : n.form = (element n.extent isFirst).1)

theorem mem_nodes_parse {source : Text} {n : Node} (listed : n ∈ (parse source).nodes source) :
    LineNode source n := by
  rw [Parse.nodes, Script.all_ofTree, parse_tree] at listed
  split at listed
  · rename_i first rest last words ends
    have last_within := (Extent.isWithin_iff _ _).mp
      (wordExtents_isWithin (List.mem_of_getLast? ends)).1
    have whole := ofSource_isWithin (wordExtents_ordered words ends) last_within.2
    let command : Node := .mk 2 (Extent.ofSource source first.start last.stop)
      (.command (numberList (wordNodes source) 3).1 none [])
    let pipeline : Node := .mk 1 (Extent.ofSource source first.start last.stop) (.pipeline [command])
    rcases Node.mem_preorder_iff.mp listed with isRoot | ⟨child, isChild, below⟩
    · subst isRoot
      exact .root rfl rfl
    have isPipeline : child = pipeline := List.mem_singleton.mp isChild
    subst isPipeline
    rcases Node.mem_preorder_iff.mp below with isPipeline | ⟨child, isChild, below⟩
    · subst isPipeline
      exact .around (Or.inl rfl) whole
    have isCommand : child = command := List.mem_singleton.mp isChild
    subst isCommand
    rcases Node.mem_preorder_iff.mp below with isCommand | ⟨child, isChild, below⟩
    · subst isCommand
      exact .around (Or.inr rfl) whole
    have isElement : child ∈ (numberList (wordNodes source) 3).1 := by
      simpa [command, Node.children, Node.form, Form.children] using isChild
    obtain ⟨word, isWord, sameExtent, sameForm⟩ :=
      mem_numberList_plain (fun word isWord => wordNodes_plain isWord) 3
        (List.mem_flatMap.mpr ⟨child, isElement, below⟩)
    obtain ⟨extent, isExtent, isFirst, hasExtent, hasForm⟩ := mem_wordNodes isWord
    rw [hasExtent] at sameExtent
    rw [hasForm, ← sameExtent] at sameForm
    exact .word (sameExtent ▸ isExtent) isFirst sameForm
  · rcases Node.mem_preorder_iff.mp listed with isRoot | ⟨child, isChild, _⟩
    · subst isRoot
      exact .root rfl rfl
    · have empty : child ∈ ([] : List Node) := isChild
      simp at empty

theorem LineNode.within {source : Text} {n : Node} (line : LineNode source n) :
    n.extent.isWithin source = true := by
  cases line with
  | root kind extent =>
      rw [extent]
      exact ofSource_isWithin (Nat.zero_le _) (Nat.le_refl _)
  | around kind within => exact within
  | word isWord isFirst form => exact (wordExtents_isWithin isWord).1

/-- No node of a command line has parts that say something about offsets. -/
theorem LineNode.kinds {source : Text} {n : Node} (line : LineNode source n) :
    n.kind = .scriptBlock ∨ n.kind = .pipeline ∨ n.kind = .command ∨ isPlain n.form = true := by
  cases line with
  | root kind extent => exact Or.inl kind
  | around kind within => exact Or.inr (kind.imp_right Or.inl)
  | word isWord isFirst form =>
      rw [form]
      exact Or.inr (Or.inr (Or.inr (element_isPlain _ _)))

theorem isPlaced_of_kind {source : Text} {n : Node} (within : n.extent.isWithin source = true)
    (kinds : n.kind = .scriptBlock ∨ n.kind = .pipeline ∨ n.kind = .command ∨ isPlain n.form = true)
    (tokens : List Token) :
    n.isPlaced source = true ∧ n.isProductPlaced tokens = true ∧ n.isNameAligned tokens = true := by
  obtain ⟨id, extent, form⟩ := n
  cases form <;>
    simp_all [Node.isPlaced, Node.isProductPlaced, Node.isNameAligned, Node.kind, Node.form, Form.kind,
      isPlain]

/-- What the command-line reader gives is well-formed, for every input. -/
theorem parse_wellFormed (source : Text) : (parse source).WellFormed source := by
  refine ⟨fun token isToken => ?_, ?_, fun n listed => ?_, fun n listed => ?_⟩
  · rw [parse_tokens, List.mem_append] at isToken
    rcases isToken with word | stop
    · obtain ⟨⟨extent, i⟩, found, same⟩ := List.mem_map.mp word
      subst same
      have isWord := wordExtents_isWithin (List.fst_mem_of_mem_zipIdx found)
      have covers := element_token extent (i == 0)
      simp only [Token.isPlaced, covers.1, covers.2.1, isWord.1, Bool.true_and]
      exact beq_iff_eq.mpr isWord.2
    · rw [List.mem_singleton.mp stop]
      simp [Token.isPlaced, Extent.isWithin, Text.between, Text.slice]
  · rw [parse_tree]
    exact ⟨rfl, rfl⟩
  · have line := mem_nodes_parse listed
    exact (isPlaced_of_kind line.within line.kinds (parse source).tokens).1
  · have line := mem_nodes_parse listed
    exact (isPlaced_of_kind line.within line.kinds (parse source).tokens).2.1

theorem parse_aligned (source : Text) : (parse source).Aligned source := by
  refine ⟨fun token isToken isStar => ?_, fun n listed => ?_⟩
  · rw [parse_tokens, List.mem_append] at isToken
    rcases isToken with word | stop
    · obtain ⟨⟨extent, i⟩, found, same⟩ := List.mem_map.mp word
      subst same
      exact absurd isStar (element_token extent (i == 0)).2.2
    · rw [List.mem_singleton.mp stop] at isStar
      contradiction
  · have line := mem_nodes_parse listed
    exact (isPlaced_of_kind line.within line.kinds (parse source).tokens).2.2

end CommandLine

end TabCompletion
