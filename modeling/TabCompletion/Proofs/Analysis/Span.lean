import TabCompletion.Engine.Complete
import TabCompletion.Proofs.Analysis.Step
import TabCompletion.Proofs.Syntax.WellFormed

/-!
The replaced span lies in the input. The analysis starts with the empty span at the cursor or with
the span of the token under it; every route that moves the span moves it inside the input, also
where a later route takes over.
-/

namespace TabCompletion.Analysis

open Cursor

/-! What holds of a context on the way. -/

/-- The context belongs to a parsed input. -/
structure Located (p : Parse) (input : Text) (c : Context) : Prop where
  script : c.script = Script.ofTree input p.tree
  cursor : 0 ≤ c.cursor ∧ c.cursor ≤ input.length
  related : ∀ n ∈ c.related, n ∈ p.nodes input

/-- The replaced span lies in the input. -/
structure Bounded (p : Parse) (input : Text) (c : Context) : Prop extends Located p input c where
  index : 0 ≤ c.replacementIndex
  length : 0 ≤ c.replacementLength
  stop : c.replacementIndex + c.replacementLength ≤ input.length

/-- The replaced span is that of the token under the cursor, and the innermost node is under the
cursor too. -/
structure OnToken (p : Parse) (input : Text) (token : Token) (last : Option Node) (c : Context) :
    Prop extends Located p input c where
  isToken : token ∈ p.tokens
  touched : token.extent.touches c.cursor = true
  isLast : c.innermost? = last
  lastTouched : ∀ n, last = some n → n.extent.touches c.cursor = true
  index : c.replacementIndex = token.extent.start
  length : c.replacementLength = (token.extent.stop : Int) - token.extent.start

variable {p : Parse} {input : Text} {token : Token} {last : Option Node} {c : Context}

theorem Located.withWord (located : Located p input c) (word : Text) :
    Located p input { c with word } := ⟨located.script, located.cursor, located.related⟩

theorem Bounded.withWord (bounded : Bounded p input c) (word : Text) :
    Bounded p input { c with word } :=
  ⟨bounded.toLocated.withWord word, bounded.index, bounded.length, bounded.stop⟩

theorem OnToken.withWord (onToken : OnToken p input token last c) (word : Text) :
    OnToken p input token last { c with word } :=
  ⟨onToken.toLocated.withWord word, onToken.isToken, onToken.touched, onToken.isLast,
    onToken.lastTouched, onToken.index, onToken.length⟩

/-- Any span inside the input may be set. -/
theorem Located.withSpan (located : Located p input c) {index length : Int} (starts : 0 ≤ index)
    (isLength : 0 ≤ length) (ends : index + length ≤ input.length) :
    Bounded p input { c with replacementIndex := index, replacementLength := length } :=
  ⟨⟨located.script, located.cursor, located.related⟩, starts, isLength, ends⟩

theorem Located.withExtent (located : Located p input c) {e : Extent}
    (within : e.isWithin input = true) :
    Bounded p input { c with
      replacementIndex := e.start, replacementLength := (e.stop : Int) - e.start } := by
  rw [Extent.isWithin_iff] at within
  apply located.withSpan <;> omega

theorem Located.atCursor (located : Located p input c) :
    Bounded p input { c with replacementIndex := c.cursor, replacementLength := 0 } := by
  have inside := located.cursor
  apply located.withSpan <;> omega

section Tokens

variable (wellFormed : p.WellFormed input)

include wellFormed

theorem token_within (isToken : token ∈ p.tokens) :
    token.extent.start ≤ token.extent.stop ∧ token.extent.stop ≤ input.length := by
  have placed := wellFormed.tokens token isToken
  rw [Token.isPlaced, Bool.and_eq_true] at placed
  exact (Extent.isWithin_iff _ _).mp placed.1

theorem token_text_length (isToken : token ∈ p.tokens) :
    token.extent.start + token.text.length = token.extent.stop := by
  have within := token_within wellFormed isToken
  have placed := wellFormed.tokens token isToken
  rw [Token.isPlaced, Bool.and_eq_true, beq_iff_eq] at placed
  rw [placed.2, Text.between, Text.slice]
  simp only [Int.toNat_natCast, List.length_drop, List.length_take]
  omega

theorem node_within {n : Node} (listed : n ∈ p.nodes input) : n.extent.isWithin input = true := by
  have placed := wellFormed.nodes n listed
  rw [Node.isPlaced, Bool.and_eq_true] at placed
  exact placed.1

theorem OnToken.bounded (onToken : OnToken p input token last c) : Bounded p input c := by
  have within := token_within wellFormed onToken.isToken
  refine ⟨onToken.toLocated, ?_, ?_, ?_⟩
  · rw [onToken.index]
    omega
  · rw [onToken.length]
    omega
  · rw [onToken.index, onToken.length]
    omega

/-- The span may be emptied behind the text of the token. -/
theorem OnToken.skipText (onToken : OnToken p input token last c) :
    Bounded p input { c with
      replacementIndex := c.replacementIndex + token.text.length, replacementLength := 0 } := by
  have within := token_within wellFormed onToken.isToken
  have covered := token_text_length wellFormed onToken.isToken
  have index := onToken.index
  apply onToken.toLocated.withSpan <;> omega

theorem OnToken.skipUnit (onToken : OnToken p input token last c) :
    Bounded p input { c with
      replacementIndex := c.replacementIndex + 1, replacementLength := 0 } := by
  -- The token has a first unit because the cursor touches it.
  have within := token_within wellFormed onToken.isToken
  have touched := (Extent.touches_iff _ _).mp onToken.touched
  have index := onToken.index
  apply onToken.toLocated.withSpan <;> omega

/-- The span may be started at an extent that ends where the token starts. -/
theorem OnToken.extendLeft (onToken : OnToken p input token last c) {e : Extent}
    (within : e.isWithin input = true) (adjacent : e.stop = token.extent.start) :
    Bounded p input { c with
      replacementIndex := e.start
      replacementLength := c.replacementLength + ((e.stop : Int) - e.start) } := by
  have tokenWithin := token_within wellFormed onToken.isToken
  rw [Extent.isWithin_iff] at within
  have length := onToken.length
  apply onToken.toLocated.withSpan <;> omega

end Tokens

/-! Routes that set the span anew. -/

mutual

/-- The part of a type name that is found is one of its parts. -/
theorem typeNameAt_mem (cursor : Int) : (written : WrittenType) → (name : Text) → (e : Extent) →
    typeNameAt? cursor written = some (name, e) → e ∈ written.extents
  | .simple _ _, name, e, found => by
      unfold typeNameAt? at found
      split at found
      · cases found
        exact List.mem_cons_self
      · contradiction
  | .generic _ _ definition arguments, name, e, found => by
      unfold typeNameAt? at found
      apply List.mem_cons_of_mem
      apply List.mem_append.mpr
      split at found
      · rename_i part inDefinition
        cases found
        exact Or.inl (typeNameAt_mem cursor definition name e inDefinition)
      · exact Or.inr (typeNameAmong_mem cursor arguments name e found)
  | .array _ _ element, name, e, found => by
      unfold typeNameAt? at found
      exact List.mem_cons_of_mem _ (typeNameAt_mem cursor element name e found)

theorem typeNameAmong_mem (cursor : Int) : (names : List WrittenType) → (name : Text) →
    (e : Extent) → typeNameAmong? cursor names = some (name, e) → e ∈ extentsOf names
  | [], _, _, found => by simp [typeNameAmong?] at found
  | first :: rest, name, e, found => by
      unfold typeNameAmong? at found
      apply List.mem_append.mpr
      split at found
      · rename_i part inFirst
        cases found
        exact Or.inl (typeNameAt_mem cursor first name e inFirst)
      · exact Or.inr (typeNameAmong_mem cursor rest name e found)

end

section Routes

variable (wellFormed : p.WellFormed input)

include wellFormed

theorem written_within {n : Node} (listed : n ∈ p.nodes input) {written : WrittenType}
    (writes : n.typeExpression? = some written ∨ n.constraintType? = some written) {e : Extent}
    (isPart : e ∈ written.extents) : e.isWithin input = true := by
  have placed := wellFormed.nodes n listed
  obtain ⟨id, extent, form⟩ := n
  rcases writes with writes | writes
  · cases form <;> simp [Node.typeExpression?, Node.form] at writes
    subst writes
    rw [Node.isPlaced, Bool.and_eq_true] at placed
    exact List.all_eq_true.mp placed.2 e isPart
  · cases form <;> simp [Node.constraintType?, Node.form] at writes
    subst writes
    rw [Node.isPlaced, Bool.and_eq_true] at placed
    exact List.all_eq_true.mp placed.2 e isPart

theorem typeNameAtCursor_bounded :
    Ensures (Bounded p input) typeNameAtCursor (fun _ => Bounded p input) := by
  apply ensures_get
  intro c start
  simp only
  split
  · exact ensures_done start
  · rename_i name e found
    obtain ⟨written, writes, isPart⟩ := Option.bind_eq_some_iff.mp found
    have within : e.isWithin input = true := by
      have part := typeNameAt_mem c.cursor written name e isPart
      split at writes
      · rename_i expression inExpression
        cases writes
        obtain ⟨n, listed, isWritten⟩ := List.exists_of_findSome?_eq_some inExpression
        exact written_within wellFormed (start.related n listed) (Or.inl isWritten) part
      · obtain ⟨n, listed, isWritten⟩ := List.exists_of_findSome?_eq_some writes
        exact written_within wellFormed (start.related n listed) (Or.inr isWritten) part
    refine ensures_bind (fun _ => Bounded p input) ?_ fun _ => ?_
    · apply setExtent_ensures
      intro d same
      rw [same]
      exact start.toLocated.withExtent within
    · exact completeWord_ensures fun d bounded => bounded.withWord name

theorem inputAsFile_bounded :
    Ensures (Bounded p input) inputAsFile (fun _ => Bounded p input) := by
  apply ensures_get
  intro c start
  split
  · exact ensures_done start
  · rename_i root isRoot
    have listed : root ∈ c.related :=
      List.mem_of_head? (Option.filter_eq_some_iff.mp isRoot).1
    split
    · exact ensures_done start
    · refine ensures_bind (fun _ => Bounded p input) ?_ fun _ => ?_
      · apply setExtent_ensures
        intro d same
        rw [same]
        exact start.toLocated.withExtent (node_within wellFormed (start.related root listed))
      · refine ensures_bind (fun _ => Bounded p input) ?_ fun _ => ?_
        · exact setWord_ensures fun d bounded => bounded.withWord _
        · exact filesAsCommand_ensures

end Routes

/-- Keys are offered at the cursor. -/
theorem keysAtCursor_keeps {kept : Context → Prop}
    (atCursor : ∀ c, kept c → kept { c with replacementIndex := c.cursor, replacementLength := 0 }) :
    Ensures kept keysAtCursor (fun _ => kept) := by
  apply ensures_get
  intro c start
  split
  · exact ensures_done start
  · simp only
    split
    · refine ensures_bind (fun _ => kept) ?_ fun _ => complete_ensures
      exact setSpan_ensures fun d same => same ▸ atCursor c start
    · exact ensures_done start

/-! Words. -/

section Words

variable (wellFormed : p.WellFormed input)

theorem last_listed {n : Node} (onToken : OnToken p input token (some n) c) : n ∈ p.nodes input :=
  onToken.related n (List.mem_of_getLast? onToken.isLast)

include wellFormed

/-- The name of an attribute argument is replaced where the argument starts. -/
theorem argumentName_within {n : Node} (listed : n ∈ p.nodes input) :
    (n.start : Int) + (match n.form with
      | .namedAttributeArgument name _ => name
      | _ => []).length ≤ input.length := by
  have placed := wellFormed.nodes n listed
  obtain ⟨id, extent, form⟩ := n
  rw [Node.isPlaced, Bool.and_eq_true] at placed
  have within : extent.start ≤ extent.stop ∧ extent.stop ≤ input.length :=
    (Extent.isWithin_iff _ _).mp placed.1
  change (extent.start : Int) + _ ≤ _
  cases form with
  | namedAttributeArgument name argument =>
      have fits : name.length ≤ extent.stop - extent.start := of_decide_eq_true placed.2
      change (extent.start : Int) + name.length ≤ _
      omega
  | _ =>
      simp only [Node.form, List.length_nil]
      omega

theorem attributeArgumentAtCursor_bounded :
    Ensures (OnToken p input token last) attributeArgumentAtCursor
      (fun results d => Bounded p input d ∧ (results = [] → OnToken p input token last d)) := by
  have kept : ∀ results d, OnToken p input token last d →
      Bounded p input d ∧ (results = ([] : List Result) → OnToken p input token last d) :=
    fun _ d onToken => ⟨onToken.bounded wellFormed, fun _ => onToken⟩
  apply ensures_get
  intro c start
  simp only
  split
  · rename_i argument owner isNamed _
    have listed : argument ∈ p.nodes input := start.related _ (List.mem_of_find?_eq_some isNamed)
    have fits := argumentName_within wellFormed listed
    refine ensures_bind (fun _ d => d = c) (ensures_lift fun _ _ same => same) fun results => ?_
    split
    · rename_i some
      refine ensures_bind (fun _ => Bounded p input) ?_ fun _ => ?_
      · apply setSpan_ensures
        intro d same
        rw [same]
        exact start.toLocated.withSpan (Int.natCast_nonneg _) (Int.natCast_nonneg _) fits
      · refine ensures_pure fun d bounded => ⟨bounded, fun none => ?_⟩
        simp [none] at some
    · exact ensures_done (kept _ _ start)
  · split
    · exact ensures_from start (ensures_mono complete_ensures (fun _ same => same) kept)
    · exact ensures_done (kept _ _ start)

end Words

/-! Members. -/

/-- A star is the operator of the product that the cursor is in, right behind the name of the member
that the product starts with. -/
theorem memberPlace_star {product access target name : Node} {isStatic : Bool}
    (place : memberPlace c token last = .star product access target name isStatic) :
    token.kind = .multiply ∧ last = some product ∧ access.form = .member target name isStatic ∧
      ∃ right e, product.form = .binary (Text.ofString "*") access right e ∧ e.start = name.stop := by
  unfold memberPlace at place
  simp only at place
  split at place
  · contradiction
  · split at place
    · split at place <;> contradiction
    · split at place
      · rename_i first operator left right e isStar isProduct hasForm
        split at place
        · rename_i owner member static leftForm
          split at place
          · rename_i fits
            cases place
            rw [Bool.and_eq_true, beq_iff_eq, beq_iff_eq] at fits
            refine ⟨isStar, rfl, leftForm, right, e, ?_, fits.2⟩
            rw [← fits.1]
            simpa using hasForm
          · contradiction
        · contradiction
      · contradiction

section Members

variable (wellFormed : p.WellFormed input) (aligned : p.Aligned input)

include wellFormed

theorem star_within {product access target name right : Node} {isStatic : Bool} {e : Extent}
    (listed : product ∈ p.nodes input) (leftForm : access.form = .member target name isStatic)
    (form : product.form = .binary (Text.ofString "*") access right e)
    (behind : e.start = name.stop) :
    access ∈ p.nodes input ∧ name.start ≤ name.stop ∧ name.stop + 1 ≤ input.length := by
  -- The span starts with the name of the member and ends with the star.
  have accessListed : access ∈ p.nodes input :=
    Script.child_mem_all listed (by simp [Node.children, form, Form.children])
  have nameListed : name ∈ p.nodes input :=
    Script.child_mem_all accessListed (by simp [Node.children, leftForm, Form.children])
  have nameWithin : name.start ≤ name.stop ∧ name.stop ≤ input.length :=
    (Extent.isWithin_iff _ _).mp (node_within wellFormed nameListed)
  have operator := wellFormed.nodes product listed
  rw [Node.isPlaced, Bool.and_eq_true, form] at operator
  have operatorWithin := (Extent.isWithin_iff input e).mp operator.2
  have star := wellFormed.products product listed
  simp only [Node.isProductPlaced, form, bne_self_eq_false, Bool.false_or, Bool.and_eq_true,
    beq_iff_eq] at star
  refine ⟨accessListed, nameWithin.1, ?_⟩
  omega

include aligned

theorem membersAtWord_bounded :
    Ensures (OnToken p input token last) (membersAtWord token last) (fun _ => Bounded p input) := by
  apply ensures_get
  intro c start
  split
  · exact ensures_done (start.bounded wellFormed)
  · exact ensures_from (start.bounded wellFormed) complete_ensures
  · -- The span moves behind the operator only if there are members to offer.
    refine ensures_bind (fun _ => OnToken p input token last) ?_ fun results => ?_
    · exact ensures_from start (completeWord_ensures fun d onToken => onToken.withWord [])
    · split
      · refine ensures_bind (fun _ => Bounded p input) ?_ fun _ => ?_
        · exact skipSpan_ensures fun d onToken => onToken.skipText wellFormed
        · exact ensures_pure fun d bounded => bounded
      · exact ensures_pure fun d onToken => onToken.bounded wellFormed
  · -- The span is the star alone until the name before it is put in front.
    rename_i product access target name isStatic place
    obtain ⟨isStar, isLast, leftForm, right, e, form, behind⟩ := memberPlace_star place
    subst isLast
    obtain ⟨accessListed, ordered, room⟩ :=
      star_within wellFormed (last_listed start) leftForm form behind
    have unit := aligned.stars token start.isToken isStar
    have within := token_within wellFormed start.isToken
    have spanIndex := start.index
    have spanLength := start.length
    refine ensures_bind (fun _ d => Located p input d ∧ d.replacementIndex = token.extent.start ∧
      d.replacementLength = 1) ?_ fun _ => ?_
    · refine ensures_modify fun d same => ?_
      subst same
      refine ⟨⟨start.script, start.cursor, fun n isRelated => ?_⟩, spanIndex, by simp only; omega⟩
      rcases List.mem_append.mp isRelated with kept | added
      · exact start.related n (List.mem_of_mem_filter kept)
      · rw [List.mem_singleton.mp added]
        exact accessListed
    · simp only
      split
      · refine ensures_bind (fun _ d => Located p input d ∧ d.replacementLength = 1) ?_ fun _ => ?_
        · exact setWord_ensures fun d kept => ⟨kept.1.withWord _, kept.2.2⟩
        · refine ensures_bind (fun _ => Bounded p input) ?_ fun _ => complete_ensures
          refine extendFrom_ensures fun d kept => ?_
          have stops : name.extent.stop = name.stop := rfl
          have starts : name.extent.start = name.start := rfl
          have length := kept.2
          apply kept.1.withSpan <;> omega
      · refine ensures_mono complete_ensures (fun d kept => ?_) fun _ _ bounded => bounded
        refine ⟨kept.1, ?_, ?_, ?_⟩ <;> omega

omit wellFormed in
/-- The name of an assembly under the cursor covers the token under the cursor. -/
theorem assemblyName_sameSpan {word parent : Node} {name : Option Node} (isWord : token.isWord = true)
    (start : OnToken p input token (some word) c) (isParent : c.parent? word = some parent)
    (form : parent.form = .usingStatement .assembly name) (isName : name.any (·.same word) = true) :
    word.extent.start = token.extent.start ∧ word.extent.stop = token.extent.stop := by
  cases name with
  | none => contradiction
  | some name =>
      have parentListed : parent ∈ p.nodes input := by
        rw [Context.parent?, start.script] at isParent
        exact Script.parent_mem_all isParent
      have nameListed : name ∈ p.nodes input :=
        Script.child_mem_all parentListed (by simp [Node.children, form, Form.children])
      have same : name = word := Script.eq_of_same nameListed (last_listed start) isName
      subst same
      have covers := aligned.names parent parentListed
      simp only [Node.isNameAligned, form] at covers
      have covered := List.all_eq_true.mp covers token start.isToken
      rw [isWord, Extent.meets_of_touches start.touched (start.lastTouched _ rfl)] at covered
      simp only [Bool.and_self, Bool.not_true, Bool.false_or, Extent.sameSpan, Bool.and_eq_true,
        beq_iff_eq] at covered
      exact ⟨covered.1.symm, covered.2.symm⟩

theorem usingName_bounded {word : Node} (isWord : token.isWord = true) :
    Ensures (OnToken p input token (some word)) (usingName word)
      (fun results d => Bounded p input d ∧
        (results = none → OnToken p input token (some word) d)) := by
  apply ensures_get
  intro c start
  have kept : Bounded p input c ∧ (none = (none : Option (List Result)) →
      OnToken p input token (some word) c) := ⟨start.bounded wellFormed, fun _ => start⟩
  split
  · rename_i kind name hasForm
    obtain ⟨parent, isParent, form⟩ := Option.map_eq_some_iff.mp hasForm
    split
    · rename_i isName
      let onName : Context := { c with
        replacementIndex := word.extent.start
        replacementLength := (word.extent.stop : Int) - word.extent.start }
      have bounded : Bounded p input { onName with word := word.text } :=
        (start.toLocated.withExtent (node_within wellFormed (last_listed start))).withWord word.text
      have answered : ∀ results : List Result, Ensures (Bounded p input) (pure (some results))
          (fun results d => Bounded p input d ∧
            (results = none → OnToken p input token (some word) d)) :=
        fun results => ensures_pure fun d bounded => ⟨bounded, by simp⟩
      refine ensures_bind (fun _ d => d = onName) ?_ fun _ => ?_
      · exact setExtent_ensures fun d same => same ▸ rfl
      refine ensures_bind (fun _ d => d = { onName with word := word.text }) ?_ fun _ => ?_
      · exact setWord_ensures fun d same => same ▸ rfl
      split
      · refine ensures_from bounded (ensures_bind _ complete_ensures fun files => ?_)
        split
        · exact answered files
        · exact ensures_bind _ complete_ensures fun modules => answered (files ++ modules)
      · exact ensures_from bounded (ensures_bind _ complete_ensures answered)
      · -- An assembly is completed as any other word, so the token must still be covered.
        obtain ⟨starts, stops⟩ := assemblyName_sameSpan aligned isWord start isParent form isName
        refine ensures_done ⟨bounded, fun _ => ?_⟩
        have moved : OnToken p input token (some word) onName :=
          { start with index := by simp only [onName, starts]
                       length := by simp only [onName, starts, stops] }
        exact moved.withWord word.text
    · exact ensures_done kept
  · exact ensures_done kept

end Members

/-! The routes of a word. -/

/-- The node before a token is one of the script. -/
theorem adjacentNode_listed (located : Located p input c) {start : Nat} {n : Node}
    (found : adjacentNode? c start = some n) : n ∈ p.nodes input ∧ n.stop = start := by
  obtain ⟨root, isRoot, isLast⟩ := Option.bind_eq_some_iff.mp found
  have rootListed : root ∈ p.nodes input :=
    located.related root (List.mem_of_head? (Option.filter_eq_some_iff.mp isRoot).1)
  obtain ⟨below, ends⟩ := List.mem_filter.mp (List.mem_of_getLast? isLast)
  simp only [Bool.and_eq_true, beq_iff_eq] at ends
  exact ⟨Node.mem_preorder_trans rootListed below, ends.1⟩

/-- The expression before an offset is one of the script, up to what continues it. -/
theorem expressionEndingAt_listed (located : Located p input c) {offset : Nat} {target : Node}
    (found : expressionEndingAt? c offset = some target) :
    ∃ n ∈ p.nodes input, n.isExpression = true ∧ n.stop = offset ∧ n.start < offset := by
  obtain ⟨root, isRoot, widened⟩ := Option.bind_eq_some_iff.mp found
  obtain ⟨inner, isLast, -⟩ := Option.map_eq_some_iff.mp widened
  have rootListed : root ∈ p.nodes input :=
    located.related root (List.mem_of_head? (Option.filter_eq_some_iff.mp isRoot).1)
  obtain ⟨below, ends⟩ := List.mem_filter.mp (List.mem_of_getLast? isLast)
  simp only [Bool.and_eq_true, beq_iff_eq, decide_eq_true_eq] at ends
  exact ⟨inner, Node.mem_preorder_trans rootListed below, ends.1.1, ends.1.2, ends.2⟩

/-- What a change of the word does not touch is kept. -/
theorem wordAsArgument_keeps {kept : Context → Prop}
    (stable : ∀ c word, kept c → kept { c with word }) (inString : Bool) :
    Ensures kept (wordAsArgument last inString) (fun _ => kept) := by
  have setsWord : ∀ word, Ensures kept (setWord word) (fun _ => kept) :=
    fun word => setWord_ensures fun d holds => stable d word holds
  apply ensures_get
  intro c start
  refine ensures_from start ?_
  simp only
  split
  on_goal 1 => refine ensures_bind (fun _ => kept) complete_ensures fun keys => ?_
  on_goal 2 =>
    refine ensures_bind (fun _ => kept) (ensures_pure fun _ holds => holds) fun keys => ?_
  -- With or without keys, what follows sets the word at most.
  all_goals
    repeat' split
    all_goals first
      | exact ensures_pure fun _ holds => holds
      | exact complete_ensures
      | exact ensures_bind _ (setsWord _) fun _ => complete_ensures

/-- A path that is glued to the node before the token starts with that node. -/
theorem commandToken_keeps {onToken kept : Context → Prop}
    (located : ∀ d, onToken d → Located p input d) (stable : ∀ d word, onToken d → onToken { d with word })
    (holds : ∀ d, onToken d → kept d)
    (glued : ∀ d n, onToken d → n ∈ p.nodes input → n.stop = token.extent.start → kept { d with
      replacementIndex := n.extent.start
      replacementLength := d.replacementLength + ((n.extent.stop : Int) - n.extent.start) })
    (inString : Bool) : Ensures onToken (commandToken token inString) (fun _ => kept) := by
  have others : Ensures kept
      (if inString = true then pure [] else filesAndCommands) (fun _ => kept) := by
    split
    · exact ensures_pure fun _ isKept => isKept
    · exact filesAndCommands_ensures
  apply ensures_get
  intro c start
  have isKept := holds c start
  simp only
  split
  · exact ensures_from isKept others
  · rename_i adjacent found
    obtain ⟨listed, ends⟩ := adjacentNode_listed (located c start) found
    have grows : Ensures onToken (extendFrom adjacent.extent) (fun _ => kept) :=
      extendFrom_ensures fun d isOn => glued d adjacent isOn listed ends
    split
    · split
      · refine ensures_from start (ensures_bind (fun _ => onToken) ?_ fun results => ?_)
        · exact completeWord_ensures fun d isOn => stable d _ isOn
        · split
          · exact ensures_bind _ grows fun _ => ensures_pure fun _ isKept => isKept
          · exact ensures_pure holds
      · split
        · refine ensures_from start (ensures_bind (fun _ => onToken) ?_ fun _ => ?_)
          · exact setWord_ensures fun d isOn => stable d _ isOn
          · exact ensures_bind _ grows fun _ => others
        · exact ensures_done isKept
    · split
      · exact ensures_from isKept others
      · exact ensures_done isKept

section WordRoutes

variable (wellFormed : p.WellFormed input) (aligned : p.Aligned input)

include wellFormed

theorem commandToken_bounded (inString : Bool) :
    Ensures (OnToken p input token last) (commandToken token inString) (fun _ => Bounded p input) :=
  commandToken_keeps (fun _ onToken => onToken.toLocated) (fun _ word onToken => onToken.withWord word)
    (fun _ onToken => onToken.bounded wellFormed)
    (fun _ _ onToken listed ends => onToken.extendLeft wellFormed (node_within wellFormed listed) ends)
    inString

include aligned

theorem plainWord_bounded (inString : Bool) :
    Ensures (OnToken p input token last) (plainWord token last inString)
      (fun _ => Bounded p input) := by
  refine orElse_ensures (attributeArgumentAtCursor_bounded wellFormed) (fun _ _ kept => kept.1) ?_
  refine ensures_mono (?_ : Ensures (OnToken p input token last) _ fun _ => Bounded p input)
    (fun d kept => kept.2 rfl) fun _ _ bounded => bounded
  apply ensures_get
  intro c start
  have bounded := start.bounded wellFormed
  split
  · exact ensures_from start (commandToken_bounded wellFormed inString)
  · split
    · split
      · exact ensures_done bounded
      · exact ensures_from bounded complete_ensures
    · refine ensures_from start (orElse_ensures (membersAtWord_bounded wellFormed aligned) ?_ ?_)
      · exact fun _ _ bounded => bounded
      · exact wordAsArgument_keeps (fun _ word bounded => bounded.withWord word) inString

theorem wordToken_bounded (isWord : token.isWord = true) (inString : Bool) :
    Ensures (OnToken p input token last) (wordToken token inString) (fun _ => Bounded p input) := by
  refine ensures_bind (fun _ => OnToken p input token last) ?_ fun _ => ?_
  · exact setWord_ensures fun d onToken => onToken.withWord token.text
  apply ensures_get
  intro c start
  rw [start.isLast]
  have plain : Ensures (OnToken p input token last) (plainWord token last inString)
      (fun _ => Bounded p input) := plainWord_bounded wellFormed aligned inString
  simp only
  split
  · split
    · refine ensures_from (start.bounded wellFormed) ?_
      exact completeWord_ensures fun d bounded => bounded.withWord _
    · refine ensures_from start (ensures_bind _ (usingName_bounded wellFormed aligned isWord) ?_)
      intro results
      split
      · exact ensures_pure fun d kept => kept.1
      · exact ensures_mono plain (fun d kept => kept.2 rfl) fun _ _ bounded => bounded
  · exact ensures_from start plain

omit aligned in
theorem parameterToken_bounded :
    Ensures (OnToken p input token last) (parameterToken token last) (fun _ => Bounded p input) := by
  refine ensures_bind (fun _ => OnToken p input token last) ?_ fun _ => ?_
  · exact setWord_ensures fun d onToken => onToken.withWord token.text
  apply ensures_get
  intro c start
  have within := token_within wellFormed start.isToken
  refine ensures_from (start.bounded wellFormed) ?_
  simp only
  refine ensures_ite (fun _ => filesAsCommand_ensures) fun _ => ?_
  split
  · exact ensures_lift fun _ _ bounded => bounded
  · refine ensures_ite (fun _ => ensures_lift fun _ _ bounded => bounded) fun _ => ?_
    refine ensures_ite (fun _ => ?_) fun _ => complete_ensures
    refine ensures_bind (fun _ => Bounded p input) ?_ fun _ => ?_
    · refine setSpan_ensures fun d bounded => ?_
      apply bounded.toLocated.withSpan <;> omega
    · exact completeWord_ensures fun d bounded => bounded.withWord []

end WordRoutes

/-! Strings. -/

/-- A member access in a string is the end of what was typed. -/
theorem access_suffix {typed access : Text}
    (found : (variableAccess? typed).or (staticAccess? typed) = some access) : access <:+ typed := by
  rcases Option.or_eq_some_iff.mp found with found | ⟨_, found⟩
  · unfold variableAccess? at found
    split at found
    · contradiction
    · simp only [Option.ite_none_right_eq_some, Option.some.injEq] at found
      exact found.2 ▸ List.drop_suffix _ _
  · unfold staticAccess? at found
    simp only at found
    split at found
    · contradiction
    · simp only [Option.ite_none_right_eq_some, Option.some.injEq] at found
      exact found.2 ▸ List.drop_suffix _ _

theorem stringAsWord_keeps {kept : Context → Prop}
    (stable : ∀ c word, kept c → kept { c with word }) (node : Node) :
    Ensures kept (stringAsWord node) (fun _ => kept) := by
  unfold stringAsWord
  split
  · exact ensures_pure fun _ holds => holds
  · rename_i word isPath
    refine ensures_bind (fun _ => kept) ?_ fun _ => ?_
    · exact setWord_ensures fun d holds => stable d word holds
    apply ensures_get
    intro c start
    refine ensures_from start ?_
    refine ensures_ite (fun _ => filesAndCommands_ensures) fun _ => ?_
    refine ensures_ite (fun _ => complete_ensures) fun _ => ?_
    refine ensures_bind _ complete_ensures fun files => ?_
    refine ensures_ite (fun _ => ?_) fun _ => ensures_pure fun _ holds => holds
    exact ensures_bind _ complete_ensures fun _ => ensures_pure fun _ holds => holds

section StringRoutes

variable (wellFormed : p.WellFormed input)

include wellFormed

theorem insideString_bounded {typed access : Text} (inner : Step (List Result))
    (start : OnToken p input token last c) (isEnd : access.length ≤ typed.length)
    (isTyped : (token.extent.start : Int) + 1 + typed.length ≤ c.cursor) :
    Ensures (fun d => d = c) (insideString inner token typed access) (fun _ => Bounded p input) := by
  -- What was typed of a string stands between its opening quote and the cursor, and so does the
  -- access that ends it.
  have bounded := start.bounded wellFormed
  refine ensures_bind _ ensures_read fun world => ?_
  split
  · exact ensures_done bounded
  · apply ensures_get
    intro d same
    subst same
    have inside := start.cursor
    refine ensures_bind (fun _ e => e = d) (ensures_lift fun _ _ same => same) ?_
    rintro ⟨results, final⟩
    refine ensures_ite (fun _ => ensures_done bounded) fun _ => ?_
    refine ensures_bind (fun _ => Bounded p input) ?_ fun _ => ensures_pure fun _ bounded => bounded
    refine setSpan_ensures fun e same => ?_
    subst same
    apply start.toLocated.withSpan <;> omega

theorem stringToken_bounded (inner : Step (List Result)) :
    Ensures (OnToken p input token last) (stringToken inner token last)
      (fun _ => Bounded p input) := by
  have nothing : Ensures (OnToken p input token last) (pure [] : Step (List Result))
      (fun _ => Bounded p input) := ensures_pure fun d onToken => onToken.bounded wellFormed
  unfold stringToken
  split
  · exact nothing
  · rename_i node
    split
    · exact nothing
    · rename_i value style isString
      apply ensures_get
      intro c start
      simp only
      split
      · rename_i access found
        have isEnd := (access_suffix (Option.ite_none_right_eq_some.mp found).2).length_le
        refine insideString_bounded wellFormed inner start isEnd ?_
        have touched := (Extent.touches_iff _ _).mp start.touched
        have short := List.length_take_le (c.cursor - token.extent.start - 1).toNat value
        omega
      · refine ensures_from (start.bounded wellFormed) ?_
        exact stringAsWord_keeps (fun _ word bounded => bounded.withWord word) node

theorem staticMembersAfter_bounded (type : Node) :
    Ensures (OnToken p input token last) (staticMembersAfter type) (fun _ => Bounded p input) := by
  -- Static members stand behind the bracket under the cursor.
  apply ensures_get
  intro c start
  refine ensures_bind _ (ensures_lift fun _ _ same => same) fun results => ?_
  refine ensures_ite (fun _ => ensures_done (start.bounded wellFormed)) fun _ => ?_
  refine ensures_bind (fun _ => Bounded p input) ?_ fun _ => ensures_pure fun _ bounded => bounded
  refine skipSpan_ensures fun d same => ?_
  subst same
  exact start.skipUnit wellFormed

end StringRoutes

/-! The route of the cursor. -/

/-- After a blank the span is empty and stays at the cursor. -/
theorem afterToken_keeps {kept : Context → Prop}
    (stable : ∀ c word, kept c → kept { c with word })
    (atCursor : ∀ c, kept c → kept { c with replacementIndex := c.cursor, replacementLength := 0 }) :
    Ensures kept afterToken (fun _ => kept) := by
  apply ensures_get
  intro c start
  let here : Context → Prop := fun d => kept d ∧ d.cursor = c.cursor
  have withWord : ∀ d word, here d → here { d with word } :=
    fun d word holds => ⟨stable d word holds.1, holds.2⟩
  have moved : Ensures here (setSpan c.cursor 0) (fun _ => here) :=
    setSpan_ensures fun d holds => ⟨holds.2 ▸ atCursor d holds.1, holds.2⟩
  have nothing : Ensures here (pure [] : Step (List Result)) (fun _ => here) :=
    ensures_pure fun _ holds => holds
  suffices stays : Ensures here _ (fun _ => here) by
    exact ensures_from ⟨start, rfl⟩ (ensures_mono stays (fun _ holds => holds) fun _ _ holds => holds.1)
  refine ensures_ite (fun _ => ?_) fun _ => ?_
  · refine ensures_bind (fun _ => here) (setWord_ensures fun d holds => withWord d [] holds) fun _ => ?_
    split
    · refine ensures_ite (fun _ => nothing) fun _ => ?_
      exact ensures_bind _ moved fun _ => complete_ensures
    · exact complete_ensures
  · have goesOn : ∀ (results : List Result) (isFile : Bool), Ensures here
        (if !results.isEmpty then do
          setSpan c.cursor 0
          return results
        else if isFile then completeWord [] (Completion.fileNames ·) else return [])
        (fun _ => here) := by
      intro results isFile
      refine ensures_ite (fun _ => ?_) fun _ => ensures_ite (fun _ => ?_) fun _ => nothing
      · exact ensures_bind _ moved fun _ => ensures_pure fun _ holds => holds
      · exact completeWord_ensures fun d holds => withWord d [] holds
    have keys : Ensures here keysAtCursor (fun _ => here) :=
      keysAtCursor_keeps fun d holds => ⟨atCursor d holds.1, holds.2⟩
    simp only
    refine ensures_ite (fun _ => ?_) fun _ => ?_
    · exact ensures_bind _ keys fun results => goesOn results _
    · split
      · refine ensures_ite (fun _ => ?_) fun _ => ?_
        · exact ensures_bind _ complete_ensures fun results => goesOn results _
        · exact ensures_bind _ nothing fun results => goesOn results _
      · exact ensures_bind _ nothing fun results => goesOn results _

section Routing

variable (wellFormed : p.WellFormed input) (aligned : p.Aligned input)
  {strings : Option (Token → Option Node → Step (List Result))}

include wellFormed aligned

theorem atToken_bounded
    (inStrings : ∀ route, strings = some route → Ensures (OnToken p input token last)
      (route token last) (fun _ => Bounded p input)) :
    Ensures (OnToken p input token last) (atToken strings token) (fun _ => Bounded p input) := by
  apply ensures_get
  intro c start
  have bounded := start.bounded wellFormed
  have nothing : Ensures (fun d => d = c) (pure [] : Step (List Result)) (fun _ => Bounded p input) :=
    ensures_done bounded
  have onWord : ∀ completion, Ensures (fun d => d = c) (completeWord token.text completion)
      (fun _ => Bounded p input) := fun completion =>
    ensures_from bounded (completeWord_ensures fun d bounded => bounded.withWord token.text)
  have behind : Ensures (fun d => d = c) (skipSpan token.text.length) (fun _ => Bounded p input) :=
    skipSpan_ensures fun d same => same ▸ start.skipText wellFormed
  have atWord : token.isWord = true → Ensures (fun d => d = c) (wordToken token strings.isNone)
      (fun _ => Bounded p input) := fun isWord =>
    ensures_from start (wordToken_bounded wellFormed aligned isWord _)
  simp only [start.isLast]
  -- One case for each kind of token, in the order of the routes.
  split
  case h_1 | h_2 => exact onWord _
  case h_3 isStar | h_4 isStar | h_5 isStar => exact atWord (by simp [Token.isWord, isStar])
  case h_6 =>
    refine ensures_ite (fun _ => nothing) fun _ => ?_
    exact ensures_from start (parameterToken_bounded wellFormed)
  case h_7 | h_8 =>
    refine ensures_bind _ behind fun _ => ensures_get fun d moved => ?_
    split
    · exact ensures_from moved complete_ensures
    · exact ensures_done moved
  case h_9 => exact ensures_ite (fun _ => nothing) fun _ => onWord _
  case h_10 | h_11 =>
    split
    · exact ensures_from start (inStrings _ rfl)
    · exact nothing
  case h_12 =>
    split
    · exact ensures_from start (staticMembersAfter_bounded wellFormed _)
    · exact nothing
  case h_13 =>
    refine ensures_ite (fun _ => ?_) fun _ => nothing
    refine ensures_bind (fun _ => Bounded p input) ?_ fun _ => complete_ensures
    refine setSpan_ensures fun d same => ?_
    have starts := bounded.index
    have length := bounded.length
    have stops := bounded.stop
    subst same
    apply start.toLocated.withSpan <;> omega
  case h_14 => exact ensures_ite (fun _ => onWord _) fun _ => nothing
  case h_15 =>
    refine ensures_ite (fun _ => ?_) fun _ => nothing
    refine ensures_bind _ behind fun _ => ?_
    exact completeWord_ensures fun d bounded => bounded.withWord []
  case h_16 =>
    refine ensures_ite (fun _ => ?_) fun _ => ?_
    · exact ensures_from bounded (ensures_lift fun _ _ bounded => bounded)
    · split
      · refine ensures_from bounded (ensures_bind (fun _ => Bounded p input) ?_ fun _ => ?_)
        · exact setWord_ensures fun d bounded => bounded.withWord token.text
        · exact ensures_lift fun _ _ bounded => bounded
      · exact nothing
  case h_17 | h_18 | h_19 =>
    split
    · exact ensures_bind _ behind fun _ => complete_ensures
    · exact nothing
  case h_20 =>
    refine ensures_ite (fun _ => ?_) fun _ => nothing
    refine ensures_from bounded (ensures_bind (fun _ => Bounded p input) ?_ fun _ => ?_)
    · exact setWord_ensures fun d bounded => bounded.withWord token.text
    · exact filesAndCommands_ensures

end Routing

/-- A context in which the analysis starts: the token under the cursor, if there is one, is a token
of the parse, and the innermost node is then under the cursor as well. -/
structure Started (p : Parse) (input : Text) (c : Context) : Prop extends Bounded p input c where
  onToken : ∀ token, c.tokenAt = some token → token ∈ p.tokens ∧
    token.extent.touches c.cursor = true ∧
    ∀ n, c.innermost? = some n → n.extent.touches c.cursor = true

section Run

variable (wellFormed : p.WellFormed input) (aligned : p.Aligned input)

include wellFormed

theorem root_touched (isToken : token ∈ p.tokens) {cursor : Int}
    (touched : token.extent.touches cursor = true) :
    (Script.ofTree input p.tree).root.extent.touches cursor = true := by
  -- The root spans the input, so a cursor that touches a token touches the root.
  have within := token_within wellFormed isToken
  obtain ⟨starts, stops⟩ := wellFormed.root
  have rootExtent : (Script.ofTree input p.tree).root.extent = p.tree.extent := by
    obtain ⟨id, extent, form⟩ := p.tree
    rfl
  rw [Extent.touches_iff] at touched ⊢
  rw [rootExtent]
  change ((p.tree.start : Nat) : Int) < cursor ∧ cursor ≤ ((p.tree.stop : Nat) : Int)
  omega

omit wellFormed in
theorem relatedNodes_listed {position : Int} {n : Node}
    (isRelated : n ∈ relatedNodes (Script.ofTree input p.tree) position) : n ∈ p.nodes input := by
  simp only [relatedNodes] at isRelated
  split at isRelated
  · exact List.mem_of_mem_filter isRelated
  · rcases List.mem_cons.mp isRelated with isRoot | kept
    · rw [isRoot]
      exact Script.root_mem_all
    · exact List.mem_of_mem_filter kept

omit wellFormed in
/-- Around a position that the root holds there are only nodes that hold it or end at it. -/
theorem relatedNodes_touched {position : Int}
    (rootTouched : (Script.ofTree input p.tree).root.extent.touches position = true) {n : Node}
    (isRelated : n ∈ relatedNodes (Script.ofTree input p.tree) position) :
    n.extent.touches position = true := by
  simp only [relatedNodes] at isRelated
  split at isRelated
  · exact (List.mem_filter.mp isRelated).2
  · rcases List.mem_cons.mp isRelated with isRoot | kept
    · rw [isRoot]
      exact rootTouched
    · exact (List.mem_filter.mp kept).2

theorem context_started {cursor : Int} (inside : 0 ≤ cursor ∧ cursor ≤ input.length)
    (request : RequestOptions) :
    Started p input (context (Script.ofTree input p.tree) p.tokens cursor request) := by
  refine ⟨⟨⟨rfl, inside, fun n isRelated => relatedNodes_listed isRelated⟩, inside.1, Int.le_refl 0,
    by simpa [context] using inside.2⟩, fun under found => ?_⟩
  obtain ⟨⟨token, index⟩, isLast, rfl⟩ := Option.map_eq_some_iff.mp found
  obtain ⟨isIndexed, places⟩ := List.mem_filter.mp (List.mem_of_getLast? isLast)
  have isToken : token ∈ p.tokens := List.fst_mem_of_mem_zipIdx isIndexed
  have touched : token.extent.touches cursor = true := (Bool.and_eq_true_iff.mp places).2
  have notBefore : searchPosition p.tokens cursor = cursor := by
    have under : tokenAt? p.tokens cursor = some (token, index) := isLast
    simp [searchPosition, tokenBefore?, under]
  refine ⟨isToken, touched, fun n isInnermost => ?_⟩
  refine relatedNodes_touched (root_touched wellFormed isToken touched) ?_
  have isRelated := List.mem_of_getLast? isInnermost
  simpa only [context, notBefore] using isRelated

include aligned

theorem routeWith_bounded {strings : Option (Token → Option Node → Step (List Result))}
    (inStrings : ∀ route, strings = some route → ∀ token last, Ensures (OnToken p input token last)
      (route token last) (fun _ => Bounded p input)) :
    Ensures (Started p input) (routeWith strings) (fun _ => Bounded p input) := by
  have falls : ∀ {first second : Step (List Result)},
      Ensures (Bounded p input) first (fun _ => Bounded p input) →
      Ensures (Bounded p input) second (fun _ => Bounded p input) →
      Ensures (Bounded p input) (orElse first second) (fun _ => Bounded p input) :=
    fun tries fallsBack => orElse_ensures tries (fun _ _ bounded => bounded) fallsBack
  refine orElse_ensures (?_ : Ensures _ _ fun _ => Bounded p input)
    (fun _ _ bounded => bounded) ?_
  · apply ensures_get
    intro c start
    split
    · rename_i token found
      obtain ⟨isToken, touched, lastTouched⟩ := start.onToken token found
      refine ensures_bind (fun _ => OnToken p input token c.innermost?) ?_ fun _ => ?_
      · refine setExtent_ensures fun d same => ?_
        subst same
        exact ⟨⟨start.script, start.cursor, start.related⟩, isToken, touched, rfl, lastTouched,
          rfl, rfl⟩
      · exact atToken_bounded wellFormed aligned fun route isRoute => inStrings route isRoute _ _
    · refine ensures_from start.toBounded (ensures_ite (fun _ => ?_) fun _ => ?_)
      · exact ensures_pure fun _ bounded => bounded
      · exact afterToken_keeps (fun _ word bounded => bounded.withWord word)
          fun _ bounded => bounded.toLocated.atCursor
  · exact falls (typeNameAtCursor_bounded wellFormed)
      (falls (keysAtCursor_keeps fun _ bounded => bounded.toLocated.atCursor)
        (inputAsFile_bounded wellFormed))

theorem route_bounded : Ensures (Started p input) route (fun _ => Bounded p input) := by
  refine routeWith_bounded wellFormed aligned fun route isRoute token last => ?_
  cases isRoute
  exact stringToken_bounded wellFormed _

end Run

end TabCompletion.Analysis
