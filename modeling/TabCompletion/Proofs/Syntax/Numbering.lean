import Mathlib.Data.List.Nodup
import TabCompletion.Syntax.Script

/-!
Numbering gives the nodes of a tree consecutive numbers in pre-order, so that in a script a number
belongs to one node only. The numbers are followed through the lists of children: each form numbers
its parts in the order in which `Form.children` lists them.
-/

namespace TabCompletion

/-- The nodes of some trees carry the numbers from `first` up to but not including `next`. -/
structure Numbered (trees : List Node) (first next : Nat) : Prop where
  ordered : first ≤ next
  numbers : (trees.flatMap Node.preorder).map Node.id = List.range' first (next - first)

theorem Node.preorder_eq (n : Node) : n.preorder = n :: n.children.flatMap Node.preorder := by
  rw [Node.preorder]
  simp [List.flatMap_subtype]

theorem Node.mem_preorder_iff {n root : Node} :
    n ∈ root.preorder ↔ n = root ∨ ∃ child ∈ root.children, n ∈ child.preorder := by
  rw [Node.preorder_eq, List.mem_cons, List.mem_flatMap]

theorem Numbered.nil (first : Nat) : Numbered [] first first := ⟨Nat.le_refl _, by simp⟩

theorem Numbered.append {front back : List Node} {first middle next : Nat}
    (left : Numbered front first middle) (right : Numbered back middle next) :
    Numbered (front ++ back) first next := by
  have below := left.ordered
  have above := right.ordered
  refine ⟨Nat.le_trans below above, ?_⟩
  rw [List.flatMap_append, List.map_append, left.numbers, right.numbers]
  have joined := @List.range'_append_1 first (middle - first) (next - middle)
  have start : first + (middle - first) = middle := by omega
  have size : middle - first + (next - middle) = next - first := by omega
  rw [start, size] at joined
  exact joined

theorem Numbered.node {form : Form} {first next : Nat} (extent : Extent)
    (parts : Numbered form.children (first + 1) next) :
    Numbered [.mk first extent form] first next := by
  have above := parts.ordered
  refine ⟨by omega, ?_⟩
  have size : next - first = next - (first + 1) + 1 := by omega
  rw [List.flatMap_singleton, Node.preorder_eq, List.map_cons, size, List.range'_succ]
  exact congrArg (List.cons first) parts.numbers

-- One case for each form: the parts are numbered from left to right, each from where the one
-- before it stopped.
mutual

theorem Node.number_numbered : (n : Node) → (first : Nat) →
    Numbered [(n.number first).1] first (n.number first).2
  | .mk _ extent form, first => .node extent (form.number_numbered (first + 1))

theorem Form.number_numbered : (form : Form) → (first : Nat) →
    Numbered (form.number first).1.children first (form.number first).2
  | .scriptBlock params usings statements, first =>
      ((numberOption_numbered params first).append (numberList_numbered usings _)).append
        (numberList_numbered statements _)
  | .paramBlock attributes parameters, first =>
      (numberList_numbered attributes first).append (numberList_numbered parameters _)
  | .parameter attributes name defaultValue, first =>
      (numberList_numbered attributes first).append
        ((name.number_numbered _).append (numberOption_numbered defaultValue _))
  | .statementBlock statements, first => numberList_numbered statements first
  | .attribute _ positional named, first =>
      (numberList_numbered positional first).append (numberList_numbered named _)
  | .namedAttributeArgument _ argument, first => numberOption_numbered argument first
  | .typeConstraint _, first => .nil first
  | .usingStatement _ name, first => numberOption_numbered name first
  | .pipeline elements, first => numberList_numbered elements first
  | .assignment left _ right, first => (left.number_numbered first).append (right.number_numbered _)
  | .functionDefinition _ _ parameters body, first =>
      (numberOptionList_numbered parameters first).append (body.number_numbered _)
  | .typeDefinition _ _ _ baseTypes members, first =>
      (numberList_numbered baseTypes first).append (numberList_numbered members _)
  | .propertyMember _ propertyType _ _ initialValue, first =>
      (numberOption_numbered propertyType first).append (numberOption_numbered initialValue _)
  | .functionMember _ parameters returnType _ _ _ body, first =>
      ((numberOption_numbered returnType first).append (numberList_numbered parameters _)).append
        (body.number_numbered _)
  | .ifStatement clauses elseClause, first =>
      (numberPairs_numbered clauses first).append (numberOption_numbered elseClause _)
  | .forEachStatement loopVariable condition body, first =>
      (loopVariable.number_numbered first).append
        ((condition.number_numbered _).append (body.number_numbered _))
  | .errorStatement _ flags nested, first =>
      (numberFlags_numbered flags first).append (numberList_numbered nested _)
  | .command elements _ redirections, first =>
      (numberList_numbered elements first).append (numberList_numbered redirections _)
  | .commandExpression expression redirections, first =>
      (expression.number_numbered first).append (numberList_numbered redirections _)
  | .commandParameter _ argument, first => numberOption_numbered argument first
  | .fileRedirection location _, first => location.number_numbered first
  | .constant _, first => .nil first
  | .stringConstant _ _, first => .nil first
  | .expandableString _ _ nested, first => numberList_numbered nested first
  | .variable _ _, first => .nil first
  | .typeExpression _, first => .nil first
  | .convert target child, first => (target.number_numbered first).append (child.number_numbered _)
  | .member target name _, first => (target.number_numbered first).append (name.number_numbered _)
  | .invokeMember target name _ arguments, first =>
      (target.number_numbered first).append
        ((name.number_numbered _).append (numberList_numbered arguments _))
  | .index target position, first => (target.number_numbered first).append (position.number_numbered _)
  | .unary _ child, first => child.number_numbered first
  | .binary _ left right _, first => (left.number_numbered first).append (right.number_numbered _)
  | .arrayLiteral elements, first => numberList_numbered elements first
  | .arrayExpression body, first => body.number_numbered first
  | .hashtable pairs, first => numberPairs_numbered pairs first
  | .paren inner, first => inner.number_numbered first
  | .subExpression body, first => body.number_numbered first
  | .scriptBlockExpression body, first => body.number_numbered first
  | .errorExpression nested, first => numberList_numbered nested first

theorem numberOption_numbered : (o : Option Node) → (first : Nat) →
    Numbered (numberOption o first).1.toList first (numberOption o first).2
  | none, first => .nil first
  | some node, first => node.number_numbered first

theorem numberList_numbered : (nodes : List Node) → (first : Nat) →
    Numbered (numberList nodes first).1 first (numberList nodes first).2
  | [], first => .nil first
  | node :: rest, first => (node.number_numbered first).append (numberList_numbered rest _)

theorem numberOptionList_numbered : (o : Option (List Node)) → (first : Nat) →
    Numbered ((numberOptionList o first).1.getD []) first (numberOptionList o first).2
  | none, first => .nil first
  | some nodes, first => numberList_numbered nodes first

theorem numberPairs_numbered : (pairs : List (Node × Node)) → (first : Nat) →
    Numbered ((numberPairs pairs first).1.flatMap fun (a, b) => [a, b]) first
      (numberPairs pairs first).2
  | [], first => .nil first
  | (a, b) :: rest, first =>
      ((a.number_numbered first).append (b.number_numbered _)).append (numberPairs_numbered rest _)

theorem numberFlags_numbered : (flags : List (StatementFlag Node)) → (first : Nat) →
    Numbered ((numberFlags flags first).1.filterMap (·.argument)) first (numberFlags flags first).2
  | [], first => .nil first
  | ⟨_, _, none⟩ :: rest, first => numberFlags_numbered rest first
  | ⟨_, _, some node⟩ :: rest, first =>
      (node.number_numbered first).append (numberFlags_numbered rest _)

end

/-! Nodes of a script. -/

theorem Node.mem_preorder_self (n : Node) : n ∈ n.preorder :=
  Node.mem_preorder_iff.mpr (Or.inl rfl)

theorem Node.mem_preorder_child {root n child : Node} (listed : n ∈ root.preorder)
    (isChild : child ∈ n.children) : child ∈ root.preorder := by
  -- The induction is on the size of the tree.
  apply Node.mem_preorder_iff.mpr
  rcases Node.mem_preorder_iff.mp listed with same | ⟨part, isPart, below⟩
  · subst same
    exact Or.inr ⟨child, isChild, child.mem_preorder_self⟩
  · have smaller := Node.sizeOf_child_lt isPart
    exact Or.inr ⟨part, isPart, Node.mem_preorder_child below isChild⟩
termination_by sizeOf root

/-- The listing of a tree holds the listing of every node in it. -/
theorem Node.mem_preorder_trans {root n m : Node} (listed : n ∈ root.preorder)
    (below : m ∈ n.preorder) : m ∈ root.preorder := by
  rcases Node.mem_preorder_iff.mp below with same | ⟨child, isChild, deeper⟩
  · subst same
    exact listed
  · have smaller := Node.sizeOf_child_lt isChild
    exact Node.mem_preorder_trans (Node.mem_preorder_child listed isChild) deeper
termination_by sizeOf n

namespace Script

variable {source : Text} {tree : Node} {linked : Bool}

@[simp] theorem all_ofTree : (ofTree source tree linked).all = (tree.number 0).1.preorder := rfl

theorem root_mem_all : (ofTree source tree linked).root ∈ (ofTree source tree linked).all :=
  Node.mem_preorder_self _

theorem child_mem_all {n child : Node} (listed : n ∈ (ofTree source tree linked).all)
    (isChild : child ∈ n.children) : child ∈ (ofTree source tree linked).all :=
  Node.mem_preorder_child listed isChild

/-- A number finds no node but those of the script. -/
theorem parent_mem_all {s : Script} {n parent : Node} (found : s.parent? n = some parent) :
    parent ∈ s.all := by
  unfold parent? node? at found
  obtain ⟨number, _, present⟩ := Option.bind_eq_some_iff.mp found
  exact Array.mem_toList_iff.mpr (Array.mem_of_getElem? present)

/-- In a script a number belongs to one node only. -/
theorem eq_of_same {n m : Node} (left : n ∈ (ofTree source tree linked).all)
    (right : m ∈ (ofTree source tree linked).all) (same : n.same m = true) : n = m := by
  rw [all_ofTree] at left right
  have numbers := (tree.number_numbered 0).numbers
  rw [List.flatMap_singleton] at numbers
  have distinct : ((tree.number 0).1.preorder.map Node.id).Nodup := by
    rw [numbers]
    exact List.nodup_range'
  exact List.inj_on_of_nodup_map distinct left right (beq_iff_eq.mp same)

end Script

end TabCompletion
