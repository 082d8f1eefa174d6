import TabCompletion.Syntax.Node

/-!
Scripts: a source text and its numbered tree. Numbering gives every node its place in the
pre-order listing, so a node's number finds the node, its parent and its ancestors.
-/

namespace TabCompletion

/-! Children are smaller, which carries every walk through a tree. -/

theorem sizeOf_lt_of_mem_toList {n : Node} {o : Option Node} (h : n ∈ o.toList) :
    sizeOf n < sizeOf o := by
  cases o with
  | none => simp at h
  | some m => simp at h; subst h; simp

theorem sizeOf_lt_of_mem_pairs {n : Node} {pairs : List (Node × Node)}
    (h : n ∈ pairs.flatMap fun (a, b) => [a, b]) : sizeOf n < sizeOf pairs := by
  induction pairs with
  | nil => simp at h
  | cons p rest ih =>
    obtain ⟨a, b⟩ := p
    simp only [List.flatMap_cons, List.mem_append, List.mem_cons, List.not_mem_nil, or_false] at h
    rcases h with (rfl | rfl) | h
    · simp; omega
    · simp; omega
    · have := ih h; simp; omega

theorem sizeOf_lt_of_mem_flags {n : Node} {flags : List (StatementFlag Node)}
    (h : n ∈ flags.filterMap (·.argument)) : sizeOf n < sizeOf flags := by
  induction flags with
  | nil => simp at h
  | cons f rest ih =>
    obtain ⟨name, extent, argument⟩ := f
    cases argument with
    | none => simp only [List.filterMap_cons] at h; have := ih h; simp; omega
    | some m =>
      simp only [List.filterMap_cons, List.mem_cons] at h
      rcases h with rfl | h
      · simp; omega
      · have := ih h; simp; omega

theorem sizeOf_lt_of_mem_getD {n : Node} {o : Option (List Node)} (h : n ∈ o.getD []) :
    sizeOf n < sizeOf o := by
  cases o with
  | none => simp at h
  | some l => have := List.sizeOf_lt_of_mem h; simp at this ⊢; omega

theorem Form.sizeOf_child_lt {n : Node} {f : Form} (h : n ∈ f.children) : sizeOf n < sizeOf f := by
  cases f <;>
    simp only [Form.children, List.mem_append, List.mem_cons, List.not_mem_nil, or_false] at h <;>
    repeat' (refine Or.elim h ?_ ?_ <;> clear h <;> intro h)
  all_goals first
    | (subst h; simp <;> omega)
    | (have lt := List.sizeOf_lt_of_mem h; simp; omega)
    | (have lt := sizeOf_lt_of_mem_toList h; simp; omega)
    | (have lt := sizeOf_lt_of_mem_pairs h; simp; omega)
    | (have lt := sizeOf_lt_of_mem_flags h; simp; omega)
    | (have lt := sizeOf_lt_of_mem_getD h; simp; omega)

theorem Node.sizeOf_child_lt {n m : Node} (h : m ∈ n.children) : sizeOf m < sizeOf n := by
  cases n with
  | mk id extent form =>
    have := Form.sizeOf_child_lt (f := form) h
    simp; omega

/-! Numbering. -/

mutual

/-- Numbers a tree in pre-order, from the number in the state on. -/
def Node.number : Node → StateM Nat Node
  | .mk _ extent form => do
      let id ← get
      set (id + 1)
      return .mk id extent (← form.number)

def Form.number : Form → StateM Nat Form
  | .scriptBlock params usings statements =>
      return .scriptBlock (← numberOption params) (← numberList usings) (← numberList statements)
  | .paramBlock attributes parameters =>
      return .paramBlock (← numberList attributes) (← numberList parameters)
  | .parameter attributes name defaultValue =>
      return .parameter (← numberList attributes) (← name.number) (← numberOption defaultValue)
  | .statementBlock statements => return .statementBlock (← numberList statements)
  | .attribute typeName positional named =>
      return .attribute typeName (← numberList positional) (← numberList named)
  | .namedAttributeArgument name argument =>
      return .namedAttributeArgument name (← numberOption argument)
  | .typeConstraint typeName => return .typeConstraint typeName
  | .usingStatement kind name => return .usingStatement kind (← numberOption name)
  | .pipeline elements => return .pipeline (← numberList elements)
  | .assignment left operator right => return .assignment (← left.number) operator (← right.number)
  | .functionDefinition name isFilter parameters body =>
      return .functionDefinition name isFilter (← numberOptionList parameters) (← body.number)
  | .typeDefinition name isClass isEnum baseTypes members =>
      return .typeDefinition name isClass isEnum (← numberList baseTypes) (← numberList members)
  | .propertyMember name propertyType isStatic isHidden initialValue =>
      return .propertyMember name (← numberOption propertyType) isStatic isHidden
        (← numberOption initialValue)
  | .functionMember name parameters returnType isStatic isHidden isConstructor body => do
      let returnType ← numberOption returnType
      return .functionMember name (← numberList parameters) returnType isStatic isHidden
        isConstructor (← body.number)
  | .ifStatement clauses elseClause =>
      return .ifStatement (← numberPairs clauses) (← numberOption elseClause)
  | .forEachStatement loopVariable condition body =>
      return .forEachStatement (← loopVariable.number) (← condition.number) (← body.number)
  | .errorStatement keyword flags nested =>
      return .errorStatement keyword (← numberFlags flags) (← numberList nested)
  | .command elements invocation redirections =>
      return .command (← numberList elements) invocation (← numberList redirections)
  | .commandExpression expression redirections =>
      return .commandExpression (← expression.number) (← numberList redirections)
  | .commandParameter name argument => return .commandParameter name (← numberOption argument)
  | .fileRedirection location appends => return .fileRedirection (← location.number) appends
  | .constant value => return .constant value
  | .stringConstant value style => return .stringConstant value style
  | .expandableString value style nested =>
      return .expandableString value style (← numberList nested)
  | .variable path splatted => return .variable path splatted
  | .typeExpression typeName => return .typeExpression typeName
  | .convert target child => return .convert (← target.number) (← child.number)
  | .member target name isStatic => return .member (← target.number) (← name.number) isStatic
  | .invokeMember target name isStatic arguments =>
      return .invokeMember (← target.number) (← name.number) isStatic (← numberList arguments)
  | .index target position => return .index (← target.number) (← position.number)
  | .unary operator child => return .unary operator (← child.number)
  | .binary operator left right operatorExtent =>
      return .binary operator (← left.number) (← right.number) operatorExtent
  | .arrayLiteral elements => return .arrayLiteral (← numberList elements)
  | .arrayExpression body => return .arrayExpression (← body.number)
  | .hashtable pairs => return .hashtable (← numberPairs pairs)
  | .paren inner => return .paren (← inner.number)
  | .subExpression body => return .subExpression (← body.number)
  | .scriptBlockExpression body => return .scriptBlockExpression (← body.number)
  | .errorExpression nested => return .errorExpression (← numberList nested)

def numberOption : Option Node → StateM Nat (Option Node)
  | none => return none
  | some node => return some (← node.number)

def numberList : List Node → StateM Nat (List Node)
  | [] => return []
  | node :: rest => return (← node.number) :: (← numberList rest)

def numberOptionList : Option (List Node) → StateM Nat (Option (List Node))
  | none => return none
  | some nodes => return some (← numberList nodes)

def numberPairs : List (Node × Node) → StateM Nat (List (Node × Node))
  | [] => return []
  | (first, second) :: rest => do
      let first ← first.number
      let second ← second.number
      return (first, second) :: (← numberPairs rest)

def numberFlags : List (StatementFlag Node) → StateM Nat (List (StatementFlag Node))
  | [] => return []
  | ⟨name, extent, argument⟩ :: rest => do
      let argument ← numberOption argument
      return ⟨name, extent, argument⟩ :: (← numberFlags rest)

end

/-! Walking. -/

def Node.preorder (n : Node) : List Node :=
  n :: n.children.attach.flatMap fun ⟨child, _⟩ => child.preorder
termination_by sizeOf n
decreasing_by exact Node.sizeOf_child_lt ‹_›

/-- The nodes of a tree outside the script blocks below its root. -/
def Node.shallow (n : Node) : List Node :=
  n :: n.children.attach.flatMap fun ⟨child, _⟩ =>
    if child.kind == .scriptBlock then [] else child.shallow
termination_by sizeOf n
decreasing_by exact Node.sizeOf_child_lt ‹_›

def Node.parentLinks (n : Node) : List (Nat × Nat) :=
  n.preorder.flatMap fun node => node.children.map fun child => (child.id, node.id)

structure Script where
  source : Text
  root : Node
  nodes : Array Node
  parents : Array (Option Nat)

namespace Script

def ofTree (source : Text) (tree : Node) (linked : Bool := true) : Script :=
  let root := (tree.number.run 0).1
  let nodes := root.preorder.toArray
  let absent := Array.replicate nodes.size none
  let parents := if linked then
    root.parentLinks.foldl (fun table (child, parent) => table.setIfInBounds child (some parent)) absent
  else absent
  { source, root, nodes, parents }

def node? (s : Script) (id : Nat) : Option Node := s.nodes[id]?

def parent? (s : Script) (n : Node) : Option Node :=
  (s.parents[n.id]?).join.bind s.node?

/-- A node and its ancestors, nearest first. A parent has a smaller number than its child, so the
number of nodes bounds the way. -/
def upwards (s : Script) : Nat → Node → List Node
  | 0, n => [n]
  | fuel + 1, n =>
      match s.parent? n with
      | some parent => n :: s.upwards fuel parent
      | none => [n]

def ancestors (s : Script) (n : Node) : List Node := s.upwards s.nodes.size n

def ancestorOfKind? (s : Script) (kind : NodeKind) (n : Node) : Option Node :=
  (s.ancestors n).find? (·.kind == kind)

def rootOf? (s : Script) (n : Node) : Option Node :=
  (s.ancestors n).getLast?.filter (·.kind == .scriptBlock)

def all (s : Script) : List Node := s.nodes.toList

def ofKind (s : Script) (kind : NodeKind) : List Node := s.all.filter (·.kind == kind)

end Script

end TabCompletion
