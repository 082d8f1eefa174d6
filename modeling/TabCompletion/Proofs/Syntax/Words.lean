import TabCompletion.Binding.Elements
import TabCompletion.Proofs.Syntax.WellFormed

/-!
A command line that goes on. A line whose last word has ended, continued by a bare word, has the
same words and that one; its command has the same elements, with the same numbers, and one more.
-/

namespace TabCompletion.CommandLine

/-! Words. -/

theorem offset_cons (offset : Nat) (u : CodeUnit) (rest : Text) :
    offset + (u :: rest).length = offset + 1 + rest.length := by
  rw [List.length_cons, Nat.add_comm rest.length, Nat.add_assoc]

/-- If the last word has ended, what follows is read as a line of its own. -/
theorem spans_append (offset : Nat) (opened : Option (Nat × Option CodeUnit)) (line more : Text)
    (ended : ∀ last, (spans offset opened line).getLast? = some last →
      last.2 < offset + line.length) :
    spans offset opened (line ++ more) =
      spans offset opened line ++ spans (offset + line.length) none more := by
  -- Only a line that stops inside a word has a span up to its end, and that is ruled out.
  fun_induction spans offset opened line with
  | case1 offset => simp
  | case2 offset start quote =>
      have impossible := ended (start, offset) rfl
      simp at impossible
  | case3 offset u rest isSpace ih =>
      rw [offset_cons] at ended ⊢
      rw [List.cons_append, spans, if_pos isSpace, ih ended]
  | case4 offset u rest isWord ih =>
      rw [offset_cons] at ended ⊢
      rw [List.cons_append, spans, if_neg isWord, ih ended]
  | case5 offset start quote u rest ends ih =>
      rw [offset_cons] at ended ⊢
      rw [List.cons_append, spans, if_pos ends, ih, List.cons_append]
      intro last isLast
      refine ended last ?_
      rw [List.getLast?_cons, isLast]
      rfl
  | case6 offset start quote u rest continues ih =>
      rw [offset_cons] at ended ⊢
      rw [List.cons_append, spans, if_neg continues, ih ended]

/-- A word without space and quotes that does not start with a dash. -/
structure Bare (word : Text) : Prop where
  nonempty : word ≠ []
  noSpace : ∀ u ∈ word, Text.isSpace u = false
  noQuote : ∀ u ∈ word, u ≠ '\x27' ∧ u ≠ '"'
  noDash : Text.startsWith word "-" = false

theorem quoteAfter_plain {u : CodeUnit} (plain : u ≠ '\x27' ∧ u ≠ '"') :
    quoteAfter none u = none := by
  have neither : (u == '\x27' || u == '"') = false := by
    rw [Bool.or_eq_false_iff]
    exact ⟨beq_eq_false_iff_ne.mpr plain.1, beq_eq_false_iff_ne.mpr plain.2⟩
  rw [quoteAfter, neither]
  rfl

theorem spans_inside {word : Text} (noSpace : ∀ u ∈ word, Text.isSpace u = false)
    (noQuote : ∀ u ∈ word, u ≠ '\x27' ∧ u ≠ '"') (offset start : Nat) :
    spans offset (some (start, none)) word = [(start, offset + word.length)] := by
  induction word generalizing offset with
  | nil => rfl
  | cons u rest ih =>
      have inside : ¬((none : Option CodeUnit).isNone && Text.isSpace u) := by
        simp [noSpace u List.mem_cons_self]
      rw [spans, if_neg inside, quoteAfter_plain (noQuote u List.mem_cons_self),
        ih (fun w listed => noSpace w (List.mem_cons_of_mem _ listed))
          fun w listed => noQuote w (List.mem_cons_of_mem _ listed)]
      rw [offset_cons]

theorem spans_bare {word : Text} (bare : Bare word) (offset : Nat) :
    spans offset none word = [(offset, offset + word.length)] := by
  cases word with
  | nil => exact absurd rfl bare.nonempty
  | cons u rest =>
      rw [spans, if_neg (by simp [bare.noSpace u List.mem_cons_self]),
        quoteAfter_plain (bare.noQuote u List.mem_cons_self),
        spans_inside (fun w listed => bare.noSpace w (List.mem_cons_of_mem _ listed))
          fun w listed => bare.noQuote w (List.mem_cons_of_mem _ listed)]
      rw [offset_cons]

theorem between_eq {source : Text} {start stop : Nat} (ordered : start ≤ stop) :
    Text.between source start stop = (source.take stop).drop start := by
  simp only [Text.between, Text.slice, Int.toNat_natCast, Nat.min_eq_left ordered,
    Nat.max_eq_right ordered]

theorem ofSource_append {line more : Text} {start stop : Nat} (ordered : start ≤ stop)
    (bounded : stop ≤ line.length) :
    Extent.ofSource (line ++ more) start stop = Extent.ofSource line start stop := by
  rw [Extent.ofSource, Extent.ofSource, between_eq ordered, between_eq ordered,
    List.take_append_of_le_length bounded]

/-- The extent of a word that is written behind a line. -/
def added (line word : Text) : Extent := ⟨line.length, line.length + word.length, word⟩

theorem ofSource_added (line word : Text) :
    Extent.ofSource (line ++ word) line.length (line.length + word.length) = added line word := by
  rw [Extent.ofSource, between_eq (Nat.le_add_right _ _), ← List.length_append, List.take_length,
    List.drop_left, added, List.length_append]

theorem wordExtents_append {line word : Text} (bare : Bare word) {last : Extent}
    (isLast : (wordExtents line).getLast? = some last) (ended : last.stop < line.length) :
    wordExtents (line ++ word) = wordExtents line ++ [added line word] := by
  have apart : spans 0 none (line ++ word) =
      spans 0 none line ++ [(line.length, line.length + word.length)] := by
    rw [spans_append, spans_bare bare, Nat.zero_add]
    intro span isSpan
    rw [wordExtents, List.getLast?_map, isSpan] at isLast
    rw [Nat.zero_add]
    cases isLast
    exact ended
  have earlier : (spans 0 none line).map (fun span =>
      Extent.ofSource (line ++ word) span.1 span.2) = wordExtents line := by
    refine List.map_congr_left fun span listed => ?_
    have bounds := (spans_bounds 0 none line (by simp)).1 span listed
    exact ofSource_append bounds.2.1 (by omega)
  rw [wordExtents, apart, List.map_append, earlier, List.map_singleton]
  simp only [ofSource_added]

/-! Elements. -/

theorem numberList_plain {nodes : List Node} (plain : ∀ n ∈ nodes, isPlain n.form = true)
    (first : Nat) :
    numberList nodes first =
      ((nodes.zipIdx first).map fun (n, i) => Node.mk i n.extent n.form, first + nodes.length) := by
  induction nodes generalizing first with
  | nil => rfl
  | cons node rest ih =>
      obtain ⟨id, extent, form⟩ := node
      have head : isPlain form = true := plain _ List.mem_cons_self
      have unfolded : numberList (.mk id extent form :: rest) first =
          (.mk first extent (form.number (first + 1)).1 ::
            (numberList rest (form.number (first + 1)).2).1,
            (numberList rest (form.number (first + 1)).2).2) := rfl
      rw [unfolded, number_plain head, ih fun n listed => plain n (List.mem_cons_of_mem _ listed)]
      simp only [List.zipIdx_cons, List.map_cons, List.length_cons, Node.extent, Node.form]
      congr 1
      omega

/-- The elements of the command on a line, with their numbers. -/
def elements (source : Text) : List Node :=
  (wordExtents source).zipIdx.map fun (extent, i) => .mk (i + 3) extent (element extent (i == 0)).1

theorem numberList_wordNodes (source : Text) :
    (numberList (wordNodes source) 3).1 = elements source := by
  rw [numberList_plain fun n isWord => wordNodes_plain isWord]
  refine List.ext_getElem (by simp [elements, wordNodes]) fun i _ _ => ?_
  simp [elements, wordNodes, Node.new, Node.extent, Node.form, Nat.add_comm]

/-- The command on a line. -/
def commandOf? (source : Text) : Option Node :=
  ((parse source).nodes source).find? (·.kind == .command)

theorem commandOf?_eq {source : Text} {last : Extent}
    (ends : (wordExtents source).getLast? = some last) :
    ∃ whole, commandOf? source = some (.mk 2 whole (.command (elements source) none [])) := by
  obtain ⟨first, rest, words⟩ : ∃ first rest, wordExtents source = first :: rest := by
    cases words : wordExtents source with
    | nil => simp [words] at ends
    | cons first rest => exact ⟨first, rest, rfl⟩
  refine ⟨Extent.ofSource source first.start last.stop, ?_⟩
  have tree : (parse source).tree = Node.new (Extent.ofSource source 0 source.length)
      (.scriptBlock none [] [statement source first last]) := by
    rw [parse_tree, ends, words]
  let command : Node := .mk 2 (Extent.ofSource source first.start last.stop)
    (.command (numberList (wordNodes source) 3).1 none [])
  let pipeline : Node := .mk 1 (Extent.ofSource source first.start last.stop) (.pipeline [command])
  let root : Node := .mk 0 (Extent.ofSource source 0 source.length) (.scriptBlock none [] [pipeline])
  have numbered : ((parse source).tree.number 0).1 = root := by
    rw [tree]
    rfl
  -- The root and the pipeline come before the command.
  have nodes : ∃ others, root.preorder = root :: pipeline :: command :: others := by
    refine ⟨command.children.flatMap Node.preorder, ?_⟩
    rw [Node.preorder_eq root]
    change root :: [pipeline].flatMap Node.preorder = _
    rw [List.flatMap_singleton, Node.preorder_eq pipeline]
    change root :: pipeline :: [command].flatMap Node.preorder = _
    rw [List.flatMap_singleton, Node.preorder_eq command]
  obtain ⟨others, nodes⟩ := nodes
  rw [commandOf?, Parse.nodes, Script.all_ofTree, numbered, nodes, ← numberList_wordNodes]
  rfl

theorem elements_append {line word : Text} (bare : Bare word) {last : Extent}
    (isLast : (wordExtents line).getLast? = some last) (ended : last.stop < line.length) :
    elements (line ++ word) = elements line ++
      [.mk ((wordExtents line).length + 3) (added line word) (element (added line word) false).1] := by
  have words := wordExtents_append bare isLast ended
  have notFirst : ((wordExtents line).length == 0) = false := by
    rw [beq_eq_false_iff_ne, ne_eq, List.length_eq_zero_iff]
    intro empty
    simp [empty] at isLast
  simp only [elements, words, List.zipIdx_append, List.map_append, List.zipIdx_singleton,
    List.map_singleton, Nat.zero_add, notFirst]

/-- A word that starts with a dash may be a parameter; every other one is an expression. -/
theorem element_cases (extent : Extent) (isFirst : Bool) :
    (∃ name, (element extent isFirst).1 = .commandParameter name none ∧
      (element extent isFirst).2.kind = .parameter ∧ Text.startsWith extent.text "-" = true) ∨
    (element extent isFirst).1.kind.isExpression = true := by
  simp only [element]
  repeat' split
  all_goals simp_all [Form.kind, NodeKind.isExpression]

theorem parameterParts?_expression {id : Nat} {extent : Extent} {form : Form}
    (isExpression : form.kind.isExpression = true) :
    (Node.mk id extent form).parameterParts? = none := by
  cases form <;> first | rfl | contradiction

/-- What an element of a line shares with the tokens of the line. -/
structure OnLine (line : Text) (last : Extent) (e : Node) : Prop where
  starts : e.start ≤ last.start
  numbered : e.id < (wordExtents line).length + 3
  unattached : ∀ parts, e.parameterParts? = some parts → parts.2 = none
  token : e.parameterParts?.isSome → ∃ token ∈ (parse line).tokens, token.kind = .parameter ∧
    token.text = e.text

theorem start_le_last {line : Text} {last extent : Extent}
    (isLast : (wordExtents line).getLast? = some last) (isWord : extent ∈ wordExtents line) :
    extent.start ≤ last.start := by
  have ordered := wordExtents_starts line
  obtain ⟨earlier, words⟩ := List.getLast?_eq_some_iff.mp isLast
  rw [words] at ordered isWord
  rcases List.mem_append.mp isWord with isEarlier | itself
  · exact (List.pairwise_append.mp ordered).2.2 extent isEarlier last (List.mem_singleton.mpr rfl)
  · exact Nat.le_of_eq (congrArg Extent.start (List.mem_singleton.mp itself))

theorem elements_onLine {line : Text} {last : Extent}
    (isLast : (wordExtents line).getLast? = some last) {e : Node} (listed : e ∈ elements line) :
    OnLine line last e := by
  obtain ⟨⟨extent, i⟩, found, rfl⟩ := List.mem_map.mp listed
  have isWord := List.fst_mem_of_mem_zipIdx found
  have below : i < (wordExtents line).length := List.snd_lt_of_mem_zipIdx found
  have token : (element extent (i == 0)).2 ∈ (parse line).tokens := by
    rw [parse_tokens]
    exact List.mem_append_left _ (List.mem_map.mpr ⟨_, found, rfl⟩)
  refine ⟨start_le_last isLast isWord, Nat.add_lt_add_right below 3, ?_, ?_⟩
  · intro parts isParameter
    rcases element_cases extent (i == 0) with ⟨name, form, -⟩ | isExpression
    · simp only [form, Node.parameterParts?, Node.form, Option.some.injEq] at isParameter
      rw [← isParameter]
    · rw [parameterParts?_expression isExpression] at isParameter
      contradiction
  · intro isParameter
    rcases element_cases extent (i == 0) with ⟨name, form, kind, -⟩ | isExpression
    · exact ⟨_, token, kind, (element_token extent (i == 0)).2.1⟩
    · rw [parameterParts?_expression isExpression] at isParameter
      contradiction

/-- The last token before the end covers the last word. -/
theorem last_token {line : Text} {token : Token}
    (isLast : (parse line).tokens.dropLast.getLast? = some token) :
    (wordExtents line).getLast? = some token.extent := by
  rw [parse_tokens, List.dropLast_concat, List.getLast?_map, Option.map_eq_some_iff] at isLast
  obtain ⟨⟨extent, i⟩, found, rfl⟩ := isLast
  rw [(element_token extent (i == 0)).1, ← List.zipIdx_map_fst 0 (wordExtents line),
    List.getLast?_map, found]
  rfl

/-- A node behind the elements of a line, made of a bare word. -/
structure Continues (line word : Text) (node : Node) : Prop where
  extent : node.extent = added line word
  numbered : node.id = (wordExtents line).length + 3
  isValue : node.parameterParts? = none
  isExpression : node.isExpression = true

theorem commandOf?_append {line word : Text} (bare : Bare word) {last : Extent}
    (isLast : (wordExtents line).getLast? = some last) (ended : last.stop < line.length) :
    ∃ whole node, commandOf? (line ++ word) =
        some (.mk 2 whole (.command (elements line ++ [node]) none [])) ∧
      Continues line word node := by
  have words := wordExtents_append bare isLast ended
  have lastWord : (wordExtents (line ++ word)).getLast? = some (added line word) := by
    rw [words, List.getLast?_concat]
  obtain ⟨whole, isCommand⟩ := commandOf?_eq lastWord
  rw [elements_append bare isLast ended] at isCommand
  refine ⟨whole, _, isCommand, ?_⟩
  rcases element_cases (added line word) false with ⟨_, -, -, dash⟩ | isExpression
  · rw [added, bare.noDash] at dash
    contradiction
  · exact ⟨rfl, rfl, parameterParts?_expression isExpression, isExpression⟩

end TabCompletion.CommandLine
