import TabCompletion.Completion.Argument
import TabCompletion.Completion.Cursor
import TabCompletion.Proofs.Syntax.Typed
import TabCompletion.Proofs.Syntax.WellFormed

/-!
The nodes around a cursor. They are what a test keeps of the listing of all nodes. Where children
lie inside their parents and beside each other, this is the way from the root down to the deepest
node that holds the position or ends at it, so that a place in it can be read as a child of the
place before.
-/

namespace TabCompletion

/-- The two spans have units in common. -/
def Extent.overlaps (a b : Extent) : Bool := max a.start b.start < min a.stop b.stop

theorem Extent.overlaps_of_touches {a b : Extent} {position : Int}
    (left : a.touches position = true) (right : b.touches position = true) :
    a.overlaps b = true := by
  rw [touches_iff] at left right
  simp only [overlaps, decide_eq_true_eq]
  omega

/-- The children of a node lie inside it and do not overlap. -/
structure Node.Nested (n : Node) : Prop where
  inside : ∀ child ∈ n.children, n.start ≤ child.start ∧ child.stop ≤ n.stop
  apart : n.children.Pairwise fun a b => a.extent.overlaps b.extent = false

instance : DecidablePred Node.Nested := fun n =>
  decidable_of_iff ((∀ child ∈ n.children, n.start ≤ child.start ∧ child.stop ≤ n.stop) ∧
      n.children.Pairwise fun a b => a.extent.overlaps b.extent = false)
    ⟨fun ⟨inside, apart⟩ => ⟨inside, apart⟩, fun ⟨inside, apart⟩ => ⟨inside, apart⟩⟩

namespace Cursor

/-- The way down from a node through those children that hold the position or end at it, as far as
there are any. -/
inductive Descent (position : Int) : Node → List Node → Prop where
  | stop {n : Node} (untouched : ∀ child ∈ n.children, child.extent.touches position = false) :
      Descent position n [n]
  | step {n child : Node} {path : List Node} (isChild : child ∈ n.children)
      (further : Descent position child path) : Descent position n (n :: path)

section Listing

variable {position : Int}

/-- What touches a position lies in what touches it. -/
theorem touches_of_below (n : Node) {m : Node} (nested : ∀ k ∈ n.preorder, k.Nested)
    (below : m ∈ n.preorder) (touched : m.extent.touches position = true) :
    n.extent.touches position = true := by
  -- The induction is on the size of the tree.
  rcases Node.mem_preorder_iff.mp below with rfl | ⟨child, isChild, deeper⟩
  · exact touched
  · have smaller := Node.sizeOf_child_lt isChild
    have listed : ∀ k ∈ child.preorder, k ∈ n.preorder := fun k isBelow =>
      Node.mem_preorder_iff.mpr (Or.inr ⟨child, isChild, isBelow⟩)
    have ofChild :=
      touches_of_below child (fun k isBelow => nested k (listed k isBelow)) deeper touched
    have inside := (nested n n.mem_preorder_self).inside child isChild
    rw [Extent.touches_iff] at ofChild ⊢
    simp only [Node.start, Node.stop] at inside
    omega
termination_by sizeOf n

theorem touched_below_eq_nil {n : Node} (nested : ∀ k ∈ n.preorder, k.Nested)
    (untouched : n.extent.touches position = false) :
    n.preorder.filter (·.extent.touches position) = [] := by
  rw [List.filter_eq_nil_iff]
  intro m below touched
  rw [touches_of_below n nested below touched] at untouched
  cases untouched

/-- Of nodes that do not overlap at most one is touched, and what is touched lies below it. -/
theorem touched_among (nodes : List Node)
    (nested : ∀ n ∈ nodes, ∀ k ∈ n.preorder, k.Nested)
    (apart : nodes.Pairwise fun a b => a.extent.overlaps b.extent = false) :
    (∀ n ∈ nodes, n.extent.touches position = false) ∧
        (nodes.flatMap Node.preorder).filter (·.extent.touches position) = [] ∨
      ∃ n ∈ nodes, n.extent.touches position = true ∧
        (nodes.flatMap Node.preorder).filter (·.extent.touches position) =
          n.preorder.filter (·.extent.touches position) := by
  induction nodes with
  | nil => exact Or.inl ⟨by simp, rfl⟩
  | cons node rest ih =>
      obtain ⟨fromFirst, apartRest⟩ := List.pairwise_cons.mp apart
      have later := ih (fun n isLater => nested n (List.mem_cons_of_mem _ isLater)) apartRest
      have nestedHere := nested node List.mem_cons_self
      simp only [List.flatMap_cons, List.filter_append]
      cases here : node.extent.touches position with
      | true =>
          refine Or.inr ⟨node, List.mem_cons_self, here, ?_⟩
          rcases later with ⟨_, nothing⟩ | ⟨n, isLater, touched, _⟩
          · rw [nothing, List.append_nil]
          · have both := Extent.overlaps_of_touches here touched
            rw [fromFirst n isLater] at both
            cases both
      | false =>
          rw [touched_below_eq_nil nestedHere here, List.nil_append]
          rcases later with ⟨untouched, nothing⟩ | ⟨n, isLater, touched, same⟩
          · refine Or.inl ⟨?_, nothing⟩
            intro n isOne
            rcases List.mem_cons.mp isOne with rfl | isLater
            · exact here
            · exact untouched n isLater
          · exact Or.inr ⟨n, List.mem_cons_of_mem _ isLater, touched, same⟩

/-- The listing of a touched tree, reduced to what is touched, is the way down from its root. -/
theorem descent_touched (n : Node) (nested : ∀ k ∈ n.preorder, k.Nested)
    (touched : n.extent.touches position = true) :
    Descent position n (n.preorder.filter (·.extent.touches position)) := by
  have nestedBelow : ∀ child ∈ n.children, ∀ k ∈ child.preorder, k.Nested :=
    fun child isChild k below =>
      nested k (Node.mem_preorder_iff.mpr (Or.inr ⟨child, isChild, below⟩))
  rw [Node.preorder_eq, List.filter_cons, if_pos touched]
  rcases touched_among n.children nestedBelow (nested n n.mem_preorder_self).apart with
    ⟨untouched, nothing⟩ | ⟨child, isChild, touchedChild, same⟩
  · rw [nothing]
    exact .stop untouched
  · have smaller := Node.sizeOf_child_lt isChild
    rw [same]
    exact .step isChild (descent_touched child (nestedBelow child isChild) touchedChild)
termination_by sizeOf n

end Listing

namespace Descent

variable {position : Int} {n : Node} {path : List Node}

theorem head (descent : Descent position n path) : path.head? = some n := by
  cases descent <;> rfl

theorem chain (descent : Descent position n path) :
    path.IsChain fun parent child => child ∈ parent.children := by
  induction descent with
  | stop _ => exact .singleton _
  | step isChild further ih =>
      cases further with
      | stop _ => exact .cons_cons isChild ih
      | step _ _ => exact .cons_cons isChild ih

/-- The way ends below all its nodes. -/
theorem last (descent : Descent position n path) :
    ∃ deepest, path.getLast? = some deepest ∧ ∀ m ∈ path, deepest ∈ m.preorder := by
  induction descent with
  | stop _ => exact ⟨_, rfl, by simp [Node.mem_preorder_self]⟩
  | @step n child path isChild further ih =>
      obtain ⟨deepest, isLast, below⟩ := ih
      refine ⟨deepest, ?_, ?_⟩
      · rw [List.getLast?_cons, isLast]
        rfl
      · intro m isOn
        rcases List.mem_cons.mp isOn with rfl | isLater
        · have belowChild := below child (List.mem_of_head? further.head)
          exact Node.mem_preorder_iff.mpr (Or.inr ⟨child, isChild, belowChild⟩)
        · exact below m isLater

end Descent

section Related

variable {source : Text} {tree : Node} {linked : Bool} (position : Int)

/-- Either nothing is touched and the root stands alone, or the nodes found are all those that are
touched and form the way down from the root. -/
theorem relatedNodes_cases (nested : ∀ n ∈ (Script.ofTree source tree linked).all, n.Nested) :
    let s := Script.ofTree source tree linked
    (∀ n ∈ s.all, n.extent.touches position = false) ∧ relatedNodes s position = [s.root] ∨
      relatedNodes s position = s.all.filter (·.extent.touches position) ∧
        Descent position s.root (relatedNodes s position) := by
  intro s
  cases rootTouched : s.root.extent.touches position with
  | false =>
      have nothing : s.all.filter (·.extent.touches position) = [] :=
        touched_below_eq_nil nested rootTouched
      refine Or.inl ⟨fun n listed => ?_, ?_⟩
      · simpa using List.filter_eq_nil_iff.mp nothing n listed
      · simp only [relatedNodes, nothing, List.head?_nil, Option.any_none, Bool.false_eq_true,
          if_false]
  | true =>
      have descent : Descent position s.root (s.all.filter (·.extent.touches position)) :=
        descent_touched s.root nested rootTouched
      have found : relatedNodes s position = s.all.filter (·.extent.touches position) := by
        simp only [relatedNodes, descent.head, Option.any_some, Node.same, beq_self_eq_true, if_true]
      exact Or.inr ⟨found, found ▸ descent⟩

theorem relatedNodes_head (nested : ∀ n ∈ (Script.ofTree source tree linked).all, n.Nested) :
    (relatedNodes (Script.ofTree source tree linked) position).head? =
      some (Script.ofTree source tree linked).root := by
  rcases relatedNodes_cases position nested with ⟨_, alone⟩ | ⟨_, descent⟩
  · rw [alone]
    rfl
  · exact descent.head

theorem relatedNodes_chain (nested : ∀ n ∈ (Script.ofTree source tree linked).all, n.Nested) :
    (relatedNodes (Script.ofTree source tree linked) position).IsChain
      fun parent child => child ∈ parent.children := by
  rcases relatedNodes_cases position nested with ⟨_, alone⟩ | ⟨_, descent⟩
  · rw [alone]
    exact .singleton _
  · exact descent.chain

theorem relatedNodes_last (nested : ∀ n ∈ (Script.ofTree source tree linked).all, n.Nested) :
    let s := Script.ofTree source tree linked
    (∀ n ∈ s.all, n.extent.touches position = false) ∧ relatedNodes s position = [s.root] ∨
      ∃ deepest ∈ s.all, (relatedNodes s position).getLast? = some deepest ∧
        deepest.extent.touches position = true ∧
        ∀ n ∈ s.all, n.extent.touches position = true → deepest ∈ n.preorder := by
  intro s
  rcases relatedNodes_cases position nested with alone | ⟨found, descent⟩
  · exact Or.inl alone
  · obtain ⟨deepest, isLast, below⟩ := descent.last
    have isRelated := List.mem_of_getLast? isLast
    rw [found] at isRelated
    obtain ⟨listed, touched⟩ := List.mem_filter.mp isRelated
    refine Or.inr ⟨deepest, listed, isLast, touched, fun n isNode touchedNode => below n ?_⟩
    rw [found]
    exact List.mem_filter.mpr ⟨isNode, touchedNode⟩

theorem related_mem_all (nested : ∀ n ∈ (Script.ofTree source tree linked).all, n.Nested) {n : Node}
    (isRelated : n ∈ relatedNodes (Script.ofTree source tree linked) position) :
    n ∈ (Script.ofTree source tree linked).all := by
  rcases relatedNodes_cases position nested with ⟨_, alone⟩ | ⟨found, _⟩
  · rw [alone, List.mem_singleton] at isRelated
    exact isRelated ▸ Script.root_mem_all
  · rw [found] at isRelated
    exact List.mem_of_mem_filter isRelated

/-- What follows a node on the way is one of its children. -/
theorem next_mem_children (nested : ∀ n ∈ (Script.ofTree source tree linked).all, n.Nested)
    {n next : Node} {index : Nat} (listed : n ∈ (Script.ofTree source tree linked).all)
    (found : (relatedNodes (Script.ofTree source tree linked) position).findIdx? (·.same n) =
      some index)
    (follows : (relatedNodes (Script.ofTree source tree linked) position)[index + 1]? = some next) :
    next ∈ n.children := by
  obtain ⟨inRange, same, _⟩ := List.findIdx?_eq_some_iff_getElem.mp found
  obtain ⟨nextInRange, isNext⟩ := List.getElem?_eq_some_iff.mp follows
  have isRelated := related_mem_all position nested (List.getElem_mem inRange)
  have here := Script.eq_of_same isRelated listed same
  have step := List.isChain_iff_getElem.mp (relatedNodes_chain position nested) index nextInRange
  rw [here, isNext] at step
  exact step

end Related

/-! Arguments of commands. -/

theorem kind_of_parameterParts {n : Node} {parts : Text × Option Node}
    (isParameter : n.parameterParts? = some parts) : n.kind = .commandParameter := by
  obtain ⟨_, _, form⟩ := n
  cases form <;> simp_all [Node.kind, Form.kind, Node.form, Node.parameterParts?]

/-- A child of a command that is no redirection is one of its elements. -/
theorem mem_elements_of_child {command next : Node} {elements redirections : List Node}
    {invocation : Option InvocationOperator}
    (isCommand : command.form = .command elements invocation redirections)
    (typed : command.form.isTyped = true) (isChild : next ∈ command.children)
    (other : next.kind ≠ .fileRedirection) : next ∈ elements := by
  rw [Node.children, isCommand] at isChild
  rcases List.mem_append.mp isChild with isElement | isRedirection
  · exact isElement
  · rw [isCommand, Form.isTyped, Bool.and_eq_true, List.all_eq_true, List.all_eq_true] at typed
    exact absurd (eq_of_beq (typed.2 next isRedirection)) other

/-- What is found on the way below a command is one of its elements after the first, or the argument
attached to one of its parameters: a redirection is passed over. -/
theorem argumentAtCursor_mem {c : Context} {command argument : Node}
    {elements redirections : List Node} {invocation : Option InvocationOperator}
    (isCommand : command.form = .command elements invocation redirections)
    (typed : command.form.isTyped = true)
    (descends : ∀ index next, c.related.findIdx? (·.same command) = some index →
      c.related[index + 1]? = some next → next ∈ command.children)
    (found : Completion.argumentAtCursor? c command = some argument) :
    argument ∈ elements.tail ∨
      ∃ parameter ∈ elements, ∃ name, parameter.parameterParts? = some (name, some argument) := by
  have isElements : command.commandElements = elements := by
    simp only [Node.commandElements, isCommand]
  unfold Completion.argumentAtCursor? at found
  split at found
  · cases found
  next index isIndex =>
    split at found
    · cases found
    next element follows =>
      have isChild := descends index element isIndex follows
      have isElement := mem_elements_of_child isCommand typed isChild
      split at found
      next name attached isParameter =>
        -- The argument attached to the parameter under the cursor.
        obtain ⟨isAttached, _⟩ := Option.filter_eq_some_iff.mp found
        have other : element.kind ≠ .fileRedirection := by
          rw [kind_of_parameterParts isParameter]
          decide
        exact Or.inr ⟨element, isElement other, name, by rw [isParameter, isAttached]⟩
      next notParameter =>
        split at found
        · cases found
        next kept =>
          cases found
          rw [isElements] at kept
          simp only [Bool.or_eq_true, Bool.not_eq_true', not_or, Bool.not_eq_false,
            Bool.not_eq_true] at kept
          have listed := isElement fun isRedirection => by
            simp [Node.isExpression, isRedirection, NodeKind.isExpression] at kept
          cases elements with
          | nil => cases listed
          | cons first rest =>
              rcases List.mem_cons.mp listed with rfl | later
              · simp [Node.same] at kept
              · exact Or.inl later

/-- The nodes around the cursor of a context are the way from the root to the deepest node that
holds the position or ends at it, the position being the end of the token before the cursor if
there is one. What follows a command there is one of its elements or one of its redirections, and
the argument at the cursor is an element after the first or attached to a parameter. -/
theorem related_is_path_to_cursor (source : Text) (tree : Node) (linked : Bool) (tokens : List Token)
    (cursor : Int) (request : RequestOptions)
    (nested : ∀ n ∈ (Script.ofTree source tree linked).all, n.Nested) :
    let s := Script.ofTree source tree linked
    let c := context s tokens cursor request
    let position := (c.tokenBefore.map fun token => (token.extent.stop : Int)).getD cursor
    c.related.head? = some s.root ∧
    c.related.IsChain (fun parent child => child ∈ parent.children) ∧
    ((∀ n ∈ s.all, n.extent.touches position = false) ∧ c.related = [s.root] ∨
      ∃ deepest ∈ s.all, c.related.getLast? = some deepest ∧
        deepest.extent.touches position = true ∧
        ∀ n ∈ s.all, n.extent.touches position = true → deepest ∈ n.preorder) ∧
    ∀ command ∈ s.all, ∀ elements invocation redirections,
      command.form = .command elements invocation redirections →
      (∀ index next, c.related.findIdx? (·.same command) = some index →
        c.related[index + 1]? = some next → next ∈ elements ∨ next ∈ redirections) ∧
      (command.form.isTyped = true → ∀ argument,
        Completion.argumentAtCursor? c command = some argument →
        argument ∈ elements.tail ∨
          ∃ parameter ∈ elements, ∃ name, parameter.parameterParts? = some (name, some argument)) := by
  intro s c position
  have isPosition : position = searchPosition tokens cursor := by
    simp only [position, c, context, searchPosition]
    cases tokenBefore? tokens cursor <;> rfl
  have isRelated : c.related = relatedNodes s position := by
    rw [isPosition]
    rfl
  rw [isRelated]
  refine ⟨relatedNodes_head position nested, relatedNodes_chain position nested,
    relatedNodes_last position nested, ?_⟩
  intro command listed elements invocation redirections isCommand
  have descends : ∀ index next, (relatedNodes s position).findIdx? (·.same command) = some index →
      (relatedNodes s position)[index + 1]? = some next → next ∈ command.children :=
    fun index next => next_mem_children position nested listed
  refine ⟨fun index next isIndex follows => ?_, fun typed argument found => ?_⟩
  · have isChild := descends index next isIndex follows
    rw [Node.children, isCommand] at isChild
    exact List.mem_append.mp isChild
  · rw [← isRelated] at descends
    exact argumentAtCursor_mem isCommand typed descends found

/-! A command with a redirection, `a > b`. -/

section Redirected

/-- The redirection, with the numbers it has in the script. -/
def redirection : Node :=
  .mk 4 ⟨2, 5, "> b"⟩ (.fileRedirection (.mk 5 ⟨4, 5, "b"⟩ (.stringConstant "b" .bareWord)) false)

def redirectedCommand : Node :=
  .mk 2 ⟨0, 5, "a > b"⟩
    (.command [.mk 3 ⟨0, 1, "a"⟩ (.stringConstant "a" .bareWord)] none [redirection])

def redirected : Node :=
  .mk 0 ⟨0, 5, "a > b"⟩ (.scriptBlock none [] [.mk 1 ⟨0, 5, "a > b"⟩ (.pipeline [redirectedCommand])])

def redirectedTokens : List Token :=
  [{ kind := .generic, text := "a", extent := ⟨0, 1, "a"⟩ },
   { kind := .redirection, text := ">", extent := ⟨2, 3, ">"⟩ },
   { kind := .generic, text := "b", extent := ⟨4, 5, "b"⟩ }]

theorem redirected_all : (Script.ofTree "a > b" redirected).all =
    [redirected, .mk 1 ⟨0, 5, "a > b"⟩ (.pipeline [redirectedCommand]), redirectedCommand,
     .mk 3 ⟨0, 1, "a"⟩ (.stringConstant "a" .bareWord), redirection,
     .mk 5 ⟨4, 5, "b"⟩ (.stringConstant "b" .bareWord)] := by
  have numbered : (redirected.number 0).1 = redirected := rfl
  rw [Script.all_ofTree, numbered]
  simp [Node.preorder_eq, redirected, redirectedCommand, redirection, Node.children, Node.form,
    Form.children]

theorem redirected_nested : ∀ n ∈ (Script.ofTree "a > b" redirected).all, n.Nested := by
  rw [redirected_all]
  decide

theorem redirected_related (request : RequestOptions) :
    (context (Script.ofTree "a > b" redirected) redirectedTokens 5 request).related =
      [redirected, .mk 1 ⟨0, 5, "a > b"⟩ (.pipeline [redirectedCommand]), redirectedCommand,
       redirection, .mk 5 ⟨4, 5, "b"⟩ (.stringConstant "b" .bareWord)] := by
  have position : searchPosition redirectedTokens 5 = 5 := by decide
  simp only [context, position, relatedNodes, redirected_all]
  rfl

/-- Below a command there may be a redirection, which is none of its elements. -/
theorem redirection_follows_command :
    let s := Script.ofTree "a > b" redirected
    let c := context s redirectedTokens 5 {}
    (∀ n ∈ s.all, n.Nested) ∧
      ∃ command ∈ s.all, command.kind = .command ∧
        ∃ index next, c.related.findIdx? (·.same command) = some index ∧
          c.related[index + 1]? = some next ∧ next ∉ command.commandElements := by
  refine ⟨redirected_nested, redirectedCommand, ?_, rfl, 2, redirection, ?_⟩
  · rw [redirected_all]
    simp
  · rw [redirected_related]
    refine ⟨rfl, rfl, ?_⟩
    simp [redirectedCommand, redirection, Node.commandElements, Node.form]

theorem redirected_path :
    let s := Script.ofTree "a > b" redirected
    let c := context s redirectedTokens 5 {}
    (∀ n ∈ s.all, n.Nested) ∧ c.related.head? = some s.root ∧
      c.related.IsChain (fun parent child => child ∈ parent.children) :=
  have path :=
    related_is_path_to_cursor "a > b" redirected true redirectedTokens 5 {} redirected_nested
  ⟨redirected_nested, path.1, path.2.1⟩

end Redirected

end Cursor
end TabCompletion
