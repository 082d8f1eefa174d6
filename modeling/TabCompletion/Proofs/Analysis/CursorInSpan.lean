import TabCompletion.Proofs.Analysis.Span

/-!
On a command line the cursor lies in the replaced span. The span of the token under the cursor holds
it, and so does the empty span at the cursor; a route that moves the span on a command line keeps the
cursor in it, except where a value is offered behind the colon of a parameter and where the cursor has
already left a closed string.
-/

namespace TabCompletion

/-! What a command line lacks. -/

namespace CommandLine

variable {input : Text} {n : Node}

theorem kind_plain (plain : isPlain n.form = true) :
    n.kind ∈ [.stringConstant, .commandParameter, .variable, .constant] := by
  obtain ⟨id, extent, form⟩ := n
  cases form <;> simp_all [isPlain, Node.form, Node.kind, Form.kind]

theorem LineNode.kind_mem (line : LineNode input n) :
    n.kind ∈ [.scriptBlock, .pipeline, .command, .stringConstant, .commandParameter, .variable,
      .constant] := by
  rcases line.kinds with kind | kind | kind | plain
  · simp [kind]
  · simp [kind]
  · simp [kind]
  · exact List.mem_cons_of_mem _ (List.mem_cons_of_mem _ (List.mem_cons_of_mem _ (kind_plain plain)))

/-- No node of a command line has one of the other kinds. -/
theorem LineNode.kind_ne (line : LineNode input n) (kind : NodeKind)
    (other : kind ∉ [NodeKind.scriptBlock, .pipeline, .command, .stringConstant, .commandParameter,
      .variable, .constant]) : n.kind ≠ kind :=
  fun same => other (same ▸ line.kind_mem)

/-- The only script block is the whole input. -/
theorem LineNode.whole (line : LineNode input n) (isBlock : n.kind = .scriptBlock) :
    n.extent = Extent.ofSource input 0 input.length := by
  cases line with
  | root kind extent => exact extent
  | around kind within => rcases kind with kind | kind <;> rw [kind] at isBlock <;> contradiction
  | word isWord isFirst form =>
      have kind := kind_plain (form ▸ element_isPlain n.extent isFirst)
      rw [isBlock] at kind
      contradiction

/-- Only words are expressions. -/
theorem LineNode.isWord (line : LineNode input n) (isExpression : n.isExpression = true) :
    n.extent ∈ wordExtents input := by
  cases line with
  | root kind extent => simp [Node.isExpression, kind, NodeKind.isExpression] at isExpression
  | around kind within =>
      rcases kind with kind | kind <;> simp [Node.isExpression, kind, NodeKind.isExpression] at isExpression
  | word isWord isFirst form => exact isWord

theorem element_kind_mem (extent : Extent) (isFirst : Bool) :
    (element extent isFirst).2.kind ∈
      [.stringLiteral, .stringExpandable, .parameter, .variable, .number, .generic] := by
  simp only [element]
  repeat' split
  all_goals simp

/-- A token that a cursor touches is that of a word. -/
theorem touched_token {token : Token} (isToken : token ∈ (parse input).tokens) {cursor : Int}
    (touched : token.extent.touches cursor = true) :
    token.extent ∈ wordExtents input ∧ ∃ isFirst, token = (element token.extent isFirst).2 := by
  rw [parse_tokens, List.mem_append] at isToken
  rcases isToken with word | isEnd
  · obtain ⟨⟨extent, i⟩, found, rfl⟩ := List.mem_map.mp word
    rw [(element_token extent (i == 0)).1]
    exact ⟨List.fst_mem_of_mem_zipIdx found, i == 0, rfl⟩
  · rw [List.mem_singleton.mp isEnd, Extent.touches_iff] at touched
    simp only at touched
    omega

theorem element_doubleQuoted {extent : Extent} {isFirst : Bool} {id : Nat} {value : Text}
    (isString : Analysis.stringParts? (.mk id extent (element extent isFirst).1) =
      some (value, .doubleQuoted)) :
    value = unquote extent.text ∧ ∀ isFirst', (element extent isFirst').2.kind = .stringExpandable := by
  simp only [element] at isString ⊢
  split at isString
  · rename_i quoted
    simp only [if_pos quoted]
    split at isString
    · simp [Analysis.stringParts?, Node.form] at isString
    · rename_i double
      simp only [Analysis.stringParts?, Node.form, Option.some.injEq, Prod.mk.injEq, and_true]
        at isString
      exact ⟨isString.symm, fun _ => if_neg double⟩
  · exfalso
    revert isString
    repeat' split
    all_goals simp [Analysis.stringParts?, Node.form]

/-- Whether a quoted word ends with its quote. -/
def isClosed (word : Text) : Bool := Text.endsWith (word.drop 1) (word.take 1)

theorem unquote_length (word : Text) :
    (unquote word).length = word.length - (if isClosed word then 2 else 1) := by
  rw [unquote, isClosed]
  split
  · simp
    omega
  · simp

end CommandLine

namespace Analysis

open Cursor CommandLine

/-- A token under the cursor whose completion goes elsewhere: behind the colon of a parameter while
the cursor is in its name, or into a string while the cursor is behind its closing quote. -/
def Strays (cursor : Int) (token : Token) : Prop :=
  (token.kind = .parameter ∧ Text.endsWith token.text ":" = true ∧ cursor ≠ token.extent.stop) ∨
  (token.kind = .stringExpandable ∧ isClosed token.text = true ∧ cursor = token.extent.stop ∧
    ((variableAccess? (unquote token.text)).or (staticAccess? (unquote token.text))).isSome = true)

instance (cursor : Int) (token : Token) : Decidable (Strays cursor token) :=
  inferInstanceAs (Decidable (_ ∨ _))

/-- The cursor lies in the replaced span of a command line. -/
structure Covered (input : Text) (place : Int) (c : Context) : Prop
    extends Located (parse input) input c where
  isHere : c.cursor = place
  starts : c.replacementIndex ≤ place
  stops : place ≤ c.replacementIndex + c.replacementLength

/-- The replaced span is that of the token under the cursor. -/
structure Touching (input : Text) (place : Int) (token : Token) (last : Option Node) (c : Context) :
    Prop extends OnToken (parse input) input token last c where
  isHere : c.cursor = place

variable {input : Text} {cursor : Int} {token : Token} {last : Option Node} {c : Context}

theorem Covered.withWord (covered : Covered input cursor c) (word : Text) :
    Covered input cursor { c with word } :=
  ⟨covered.toLocated.withWord word, covered.isHere, covered.starts, covered.stops⟩

theorem Touching.withWord (touching : Touching input cursor token last c) (word : Text) :
    Touching input cursor token last { c with word } :=
  ⟨touching.toOnToken.withWord word, touching.isHere⟩

theorem Located.withCovering (located : Located (parse input) input c) {index length : Int}
    (isHere : c.cursor = cursor) (starts : index ≤ cursor) (stops : cursor ≤ index + length) :
    Covered input cursor { c with replacementIndex := index, replacementLength := length } :=
  ⟨⟨located.script, located.cursor, located.related⟩, isHere, starts, stops⟩

theorem Covered.atCursor (covered : Covered input cursor c) :
    Covered input cursor { c with replacementIndex := c.cursor, replacementLength := 0 } := by
  have isHere := covered.isHere
  apply covered.toLocated.withCovering isHere <;> omega

theorem Touching.covered (touching : Touching input cursor token last c) :
    Covered input cursor c := by
  have touched := (Extent.touches_iff _ _).mp touching.touched
  have index := touching.index
  have length := touching.length
  have isHere := touching.isHere
  exact ⟨touching.toLocated, isHere, by omega, by omega⟩

/-- The span may be started at a node that ends where the token starts. -/
theorem Touching.coveredFrom (touching : Touching input cursor token last c) {e : Extent}
    (within : e.isWithin input = true) (adjacent : e.stop = token.extent.start) :
    Covered input cursor { c with
      replacementIndex := e.start
      replacementLength := c.replacementLength + ((e.stop : Int) - e.start) } := by
  have touched := (Extent.touches_iff _ _).mp touching.touched
  rw [Extent.isWithin_iff] at within
  have length := touching.length
  have isHere := touching.isHere
  apply touching.toLocated.withCovering isHere <;> omega

theorem Located.lineNode (located : Located (parse input) input c) {n : Node}
    (isRelated : n ∈ c.related) : LineNode input n := mem_nodes_parse (located.related n isRelated)

theorem Located.lineParent (located : Located (parse input) input c) {n parent : Node}
    (isParent : c.parent? n = some parent) : LineNode input parent := by
  rw [Context.parent?, located.script] at isParent
  exact mem_nodes_parse (Script.parent_mem_all isParent)

/-! Routes that a command line does not take. -/

section Untaken

theorem typeNameAtCursor_covered :
    Ensures (Covered input cursor) typeNameAtCursor (fun _ => Covered input cursor) := by
  apply ensures_get
  intro c start
  have noExpression : c.related.findSome? Node.typeExpression? = none := by
    rw [List.findSome?_eq_none_iff]
    intro n isRelated
    have kind := (start.lineNode isRelated).kind_mem
    obtain ⟨id, extent, form⟩ := n
    cases form <;> simp_all [Node.typeExpression?, Node.form, Node.kind, Form.kind]
  have noConstraint : c.related.findSome? Node.constraintType? = none := by
    rw [List.findSome?_eq_none_iff]
    intro n isRelated
    have kind := (start.lineNode isRelated).kind_mem
    obtain ⟨id, extent, form⟩ := n
    cases form <;> simp_all [Node.constraintType?, Node.form, Node.kind, Form.kind]
  simp only [noExpression, noConstraint]
  exact ensures_done start

theorem attributeArgumentAtCursor_skipped :
    Ensures (Touching input cursor token last) attributeArgumentAtCursor
      (fun _ => Touching input cursor token last) := by
  apply ensures_get
  intro c start
  have noNode : ∀ kind, kind ∉ [NodeKind.scriptBlock, .pipeline, .command, .stringConstant,
      .commandParameter, .variable, .constant] → c.related.find? (·.kind == kind) = none := by
    intro kind other
    rw [List.find?_eq_none]
    intro n isRelated same
    exact (start.lineNode isRelated).kind_ne kind other (beq_iff_eq.mp same)
  simp only [noNode .namedAttributeArgument (by decide), noNode .attribute (by decide)]
  exact ensures_done start

theorem usingName_skipped (word : Node) :
    Ensures (Touching input cursor token last) (usingName word)
      (fun results d => results = none ∧ Touching input cursor token last d) := by
  apply ensures_get
  intro c start
  split
  · rename_i kind name hasForm
    obtain ⟨parent, isParent, form⟩ := Option.map_eq_some_iff.mp hasForm
    refine absurd ?_ ((start.lineParent isParent).kind_ne .usingStatement (by decide))
    rw [Node.kind, form]
    rfl
  · exact ensures_done ⟨rfl, start⟩

/-- No word stands right before the word under the cursor, so nothing has members there. -/
theorem memberPlace_none (start : Touching input cursor token last c)
    (isWord : token.extent ∈ wordExtents input) (noStar : token.kind ≠ .multiply) :
    memberPlace c token last = .none := by
  unfold memberPlace
  simp only
  split
  · rename_i target isStatic byName
    exfalso
    split at byName
    · rename_i node
      split at byName
      · rename_i hasForm
        obtain ⟨parent, isParent, form⟩ := Option.map_eq_some_iff.mp hasForm
        refine (start.lineParent isParent).kind_ne .member (by decide) ?_
        rw [Node.kind, form]
        rfl
      · contradiction
    · contradiction
  · split
    · split
      · rename_i target found
        exfalso
        obtain ⟨n, listed, isExpression, ends, starts⟩ := expressionEndingAt_listed start.toLocated found
        have within := (Extent.isWithin_iff _ _).mp (wordExtents_isWithin isWord).1
        have nStart : n.extent.start = n.start := rfl
        have nStop : n.extent.stop = n.stop := rfl
        rcases word_apart ((mem_nodes_parse listed).isWord isExpression) isWord with same | apart
        · rw [← same] at starts
          omega
        · omega
      · rfl
    · split
      · rename_i isStar _ _
        exact absurd isStar noStar
      · rfl

theorem membersAtWord_skipped (isWord : token.extent ∈ wordExtents input)
    (noStar : token.kind ≠ .multiply) :
    Ensures (Touching input cursor token last) (membersAtWord token last)
      (fun _ => Touching input cursor token last) := by
  apply ensures_get
  intro c start
  rw [memberPlace_none start isWord noStar]
  exact ensures_done start

end Untaken

/-! Routes that a command line takes. -/

section Taken

theorem inputAsFile_covered :
    Ensures (Covered input cursor) inputAsFile (fun _ => Covered input cursor) := by
  apply ensures_get
  intro c start
  split
  · exact ensures_done start
  · rename_i root isRoot
    obtain ⟨isHead, isBlock⟩ := Option.filter_eq_some_iff.mp isRoot
    have whole := (start.lineNode (List.mem_of_head? isHead)).whole (beq_iff_eq.mp isBlock)
    refine ensures_ite (fun _ => ensures_done start) fun _ => ?_
    refine ensures_bind (fun _ => Covered input cursor) ?_ fun _ => ?_
    · refine setExtent_ensures fun d same => ?_
      subst same
      rw [whole]
      have inside := start.isHere ▸ start.cursor
      refine start.toLocated.withCovering start.isHere inside.1 ?_
      simpa [Extent.ofSource] using inside.2
    · refine ensures_bind (fun _ => Covered input cursor) ?_ fun _ => filesAsCommand_ensures
      exact setWord_ensures fun d covered => covered.withWord _

theorem commandToken_covered (inString : Bool) :
    Ensures (Touching input cursor token last) (commandToken token inString)
      (fun _ => Covered input cursor) :=
  commandToken_keeps (fun _ touching => touching.toLocated)
    (fun _ word touching => touching.withWord word) (fun _ touching => touching.covered)
    (fun _ _ touching listed ends => touching.coveredFrom (mem_nodes_parse listed).within ends) inString

theorem plainWord_covered (isWord : token.extent ∈ wordExtents input)
    (noStar : token.kind ≠ .multiply) (inString : Bool) :
    Ensures (Touching input cursor token last) (plainWord token last inString)
      (fun _ => Covered input cursor) := by
  refine orElse_ensures attributeArgumentAtCursor_skipped (fun _ _ onToken => onToken.covered) ?_
  apply ensures_get
  intro c start
  refine ensures_ite (fun _ => ensures_from start (commandToken_covered inString)) fun _ => ?_
  refine ensures_ite (fun _ => ?_) fun _ => ?_
  · refine ensures_ite (fun _ => ensures_done start.covered) fun _ => ?_
    exact ensures_from start.covered complete_ensures
  · refine ensures_from start (orElse_ensures (membersAtWord_skipped isWord noStar) ?_ ?_)
    · exact fun _ _ onToken => onToken.covered
    · refine ensures_mono (wordAsArgument_keeps (fun _ word covered => covered.withWord word) inString)
        (fun _ onToken => onToken.covered) fun _ _ covered => covered

theorem wordToken_covered (isWord : token.extent ∈ wordExtents input)
    (noStar : token.kind ≠ .multiply) (inString : Bool) :
    Ensures (Touching input cursor token last) (wordToken token inString)
      (fun _ => Covered input cursor) := by
  refine ensures_bind (fun _ => Touching input cursor token last) ?_ fun _ => ?_
  · exact setWord_ensures fun d onToken => onToken.withWord token.text
  apply ensures_get
  intro c start
  rw [start.isLast]
  have plain : Ensures (Touching input cursor token last) (plainWord token last inString)
      (fun _ => Covered input cursor) := plainWord_covered isWord noStar inString
  simp only
  split
  · split
    · refine ensures_from start.covered ?_
      exact completeWord_ensures fun d covered => covered.withWord _
    · refine ensures_from start (ensures_bind _ (usingName_skipped _) fun results => ?_)
      cases results with
      | none => exact ensures_mono plain (fun d kept => kept.2) fun _ _ covered => covered
      | some found => exact ensures_pure fun d kept => absurd kept.1 (Option.some_ne_none found)
  · exact ensures_from start plain

theorem parameterToken_covered (settled : ¬Strays cursor token)
    (isParameter : token.kind = .parameter) :
    Ensures (Touching input cursor token last)
      (parameterToken token last) (fun _ => Covered input cursor) := by
  refine ensures_bind
    (fun _ => Touching input cursor token last) ?_ fun _ => ?_
  · exact setWord_ensures fun d kept => kept.withWord token.text
  apply ensures_get
  intro c start
  have covered := start.covered
  refine ensures_ite (fun _ => ensures_from covered filesAsCommand_ensures) fun _ => ?_
  split
  · exact ensures_from covered (ensures_lift fun _ _ covered => covered)
  · refine ensures_ite (fun _ => ensures_from covered (ensures_lift fun _ _ covered => covered)) fun _ => ?_
    refine ensures_ite (fun colon => ?_) fun _ => ensures_from covered complete_ensures
    refine ensures_bind (fun _ => Covered input cursor) ?_ fun _ => ?_
    · refine setSpan_ensures fun d same => ?_
      subst same
      have atEnd : cursor = token.extent.stop := by
        by_contra inside
        exact settled (Or.inl ⟨isParameter, colon, inside⟩)
      apply start.toLocated.withCovering start.isHere <;> omega
    · exact completeWord_ensures fun d covered => covered.withWord []

/-- What was typed of a string reaches up to the cursor, unless the cursor is behind the closing
quote. -/
theorem typed_reaches {word : Text} {start stop : Nat} {cursor : Int}
    (covers : start + word.length = stop) (inside : (start : Int) < cursor ∧ cursor ≤ stop)
    (short : ((unquote word).take (cursor - start - 1).toNat).length < (cursor - start - 1).toNat) :
    isClosed word = true ∧ cursor = stop ∧
      (unquote word).take (cursor - start - 1).toNat = unquote word := by
  have length := unquote_length word
  rw [List.length_take] at short
  cases closed : isClosed word with
  | false =>
      rw [closed, if_neg Bool.false_ne_true] at length
      omega
  | true =>
      rw [closed, if_pos rfl] at length
      exact ⟨rfl, by omega, List.take_of_length_le (by omega)⟩

theorem string_kind {n : Node} {value : Text} {style : StringStyle}
    (isString : stringParts? n = some (value, style)) :
    n.kind = .stringConstant ∨ n.kind = .expandableString := by
  obtain ⟨id, extent, form⟩ := n
  cases form <;> simp_all [stringParts?, Node.form, Node.kind, Form.kind]

/-- The node of a string under the cursor is that of the token under the cursor. -/
theorem string_of_token {node : Node} {value : Text}
    (start : Touching input cursor token (some node) c)
    (isString : stringParts? node = some (value, .doubleQuoted)) :
    value = unquote token.text ∧ token.kind = .stringExpandable := by
  obtain ⟨isWord, isFirst, isElement⟩ := touched_token start.isToken start.touched
  have nodeTouched := (Extent.touches_iff _ _).mp (start.lastTouched node rfl)
  have touched := (Extent.touches_iff _ _).mp start.touched
  have kind := string_kind isString
  cases mem_nodes_parse (last_listed start.toOnToken) with
  | root isRoot extent => simp [isRoot] at kind
  | around isAround within => rcases isAround with isAround | isAround <;> simp [isAround] at kind
  | word isNodeWord isFirst' form =>
      have sameExtent : node.extent = token.extent := by
        rcases word_apart isNodeWord isWord with same | apart
        · exact same
        · omega
      obtain ⟨id, extent, written⟩ := node
      have isWritten : written = (element extent isFirst').1 := form
      subst isWritten
      obtain ⟨isValue, isExpandable⟩ := element_doubleQuoted isString
      have sameText : token.text = extent.text := by
        rw [isElement, (element_token _ isFirst).2.1, ← sameExtent]
        rfl
      have sameKind : token.kind = (element extent isFirst).2.kind := by
        rw [isElement, ← sameExtent]
        rfl
      rw [sameText, sameKind]
      exact ⟨isValue, isExpandable isFirst⟩

theorem insideString_covered {typed access : Text} (inner : Step (List Result))
    (start : Touching input cursor token last c)
    (isTyped : (token.extent.start : Int) + 1 + typed.length = cursor) :
    Ensures (fun d => d = c) (insideString inner token typed access) (fun _ => Covered input cursor) := by
  refine ensures_bind _ ensures_read fun world => ?_
  split
  · exact ensures_done start.covered
  · apply ensures_get
    intro d same
    subst same
    refine ensures_bind (fun _ e => e = d) (ensures_lift fun _ _ same => same) ?_
    rintro ⟨results, final⟩
    refine ensures_ite (fun _ => ensures_done start.covered) fun _ => ?_
    refine ensures_bind (fun _ => Covered input cursor) ?_ fun _ => ensures_pure fun _ covered => covered
    refine setSpan_ensures fun e same => ?_
    subst same
    apply start.toLocated.withCovering start.isHere <;> omega

theorem stringToken_covered (settled : ¬Strays cursor token)
    (inner : Step (List Result)) :
    Ensures (Touching input cursor token last)
      (stringToken inner token last) (fun _ => Covered input cursor) := by
  have nothing : Ensures (Touching input cursor token last)
      (pure [] : Step (List Result)) (fun _ => Covered input cursor) :=
    ensures_pure fun d kept => kept.covered
  unfold stringToken
  split
  · exact nothing
  · rename_i node
    split
    · exact nothing
    · rename_i value style isString
      apply ensures_get
      intro c start
      simp only
      split
      · rename_i access found
        obtain ⟨isDouble, isAccess⟩ := Option.ite_none_right_eq_some.mp found
        rw [beq_iff_eq] at isDouble
        subst isDouble
        obtain ⟨rfl, isExpandable⟩ := string_of_token start isString
        refine insideString_covered inner start ?_
        have touched := start.isHere ▸ (Extent.touches_iff _ _).mp start.touched
        have covers := token_text_length (parse_wellFormed input) start.isToken
        rw [start.isHere] at isAccess ⊢
        have short := List.length_take_le (cursor - token.extent.start - 1).toNat (unquote token.text)
        -- Otherwise the cursor is behind the closing quote and the whole string ends in an access.
        by_contra apart
        obtain ⟨closed, atEnd, whole⟩ := typed_reaches covers touched (by omega)
        rw [whole] at isAccess
        exact settled (Or.inr ⟨isExpandable, closed, atEnd, by rw [isAccess]; rfl⟩)
      · refine ensures_from start.covered ?_
        exact stringAsWord_keeps (fun _ word covered => covered.withWord word) node

end Taken

/-! The route of the cursor. -/

section Routing

variable {strings : Option (Token → Option Node → Step (List Result))}

theorem strings_covered {c : Context} (start : Touching input cursor token last c)
    (inStrings : ∀ route, strings = some route →
      Ensures (Touching input cursor token last)
        (route token last) (fun _ => Covered input cursor)) :
    Ensures (fun d => d = c)
      (match strings with
        | some route => route token last
        | none => pure []) (fun _ => Covered input cursor) := by
  split
  · exact ensures_from start (inStrings _ rfl)
  · exact ensures_done start.covered

theorem atToken_covered (settled : ¬Strays cursor token)
    (inStrings : ∀ route, strings = some route →
      Ensures (Touching input cursor token last)
        (route token last) (fun _ => Covered input cursor)) :
    Ensures (Touching input cursor token last)
      (atToken strings token) (fun _ => Covered input cursor) := by
  apply ensures_get
  intro c start
  have covered := start.covered
  obtain ⟨isWord, isFirst, isElement⟩ := touched_token start.isToken start.touched
  have kind := element_kind_mem token.extent isFirst
  rw [← isElement] at kind
  have nothing : Ensures (fun d => d = c) (pure [] : Step (List Result)) (fun _ => Covered input cursor) :=
    ensures_done covered
  have onWord : ∀ completion, Ensures (fun d => d = c) (completeWord token.text completion)
      (fun _ => Covered input cursor) := fun completion =>
    ensures_from covered (completeWord_ensures fun d covered => covered.withWord token.text)
  have inString := strings_covered start inStrings
  simp only [start.isLast]
  simp only [List.mem_cons, List.not_mem_nil, or_false] at kind
  rcases kind with isKind | isKind | isKind | isKind | isKind | isKind <;> simp only [isKind]
  · exact inString
  · exact inString
  · refine ensures_ite (fun _ => nothing) fun _ => ?_
    exact ensures_from start (parameterToken_covered settled isKind)
  · exact onWord _
  · exact ensures_ite (fun _ => onWord _) fun _ => nothing
  · exact ensures_from start (wordToken_covered isWord (by simp [isKind]) _)

/-- Where the analysis starts: the cursor is in the span, and a token under it keeps it there. -/
structure Settled (input : Text) (place : Int) (c : Context) : Prop
    extends Started (parse input) input c where
  isHere : c.cursor = place
  starts : c.replacementIndex = place
  empty : c.replacementLength = 0
  settled : ∀ token, c.tokenAt = some token → ¬Strays place token

theorem Settled.covered (start : Settled input cursor c) : Covered input cursor c := by
  have starts := start.starts
  have empty := start.empty
  exact ⟨start.toLocated, start.isHere, by omega, by omega⟩

theorem route_covered : Ensures (Settled input cursor) route (fun _ => Covered input cursor) := by
  have falls : ∀ {first second : Step (List Result)},
      Ensures (Covered input cursor) first (fun _ => Covered input cursor) →
      Ensures (Covered input cursor) second (fun _ => Covered input cursor) →
      Ensures (Covered input cursor) (orElse first second) (fun _ => Covered input cursor) :=
    fun tries fallsBack => orElse_ensures tries (fun _ _ covered => covered) fallsBack
  refine orElse_ensures (?_ : Ensures _ _ fun _ => Covered input cursor) (fun _ _ covered => covered) ?_
  · apply ensures_get
    intro c start
    split
    · rename_i token found
      obtain ⟨isToken, touched, lastTouched⟩ := start.onToken token found
      refine ensures_bind
        (fun _ => Touching input cursor token c.innermost?) ?_ ?_
      · refine setExtent_ensures fun d same => ?_
        subst same
        exact ⟨⟨⟨start.script, start.cursor, start.related⟩, isToken, touched, rfl, lastTouched, rfl,
          rfl⟩, start.isHere⟩
      · refine fun _ => atToken_covered (start.settled token found) fun route isRoute => ?_
        cases isRoute
        exact stringToken_covered (start.settled token found) _
    · refine ensures_from start.covered (ensures_ite (fun _ => ?_) fun _ => ?_)
      · exact ensures_pure fun _ covered => covered
      · exact afterToken_keeps (fun _ word covered => covered.withWord word)
          fun _ covered => covered.atCursor
  · exact falls typeNameAtCursor_covered
      (falls (keysAtCursor_keeps fun _ covered => covered.atCursor) inputAsFile_covered)

end Routing

end Analysis

end TabCompletion
