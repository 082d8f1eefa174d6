import TabCompletion.Proofs.Completion.InferredClasses
import TabCompletion.Proofs.Syntax.Ancestors

/-!
Inference ends. A node asks for the types of at most one other node, which may stand anywhere in the
script, and a member of a class is looked up along base types that may lead back to the class. No
measure of the tree goes down on these ways: they end because a call that finds its node or class in
the set of those under way asks no further, and each other call adds a new one of the script to the
set.
-/

namespace TabCompletion

namespace Inference

/-! The node that a node asks for. -/

/-- Where the types of a declared variable come from. -/
def declaredBy? (declaration : Node) : Option Node :=
  match declaration.form with
  | .parameter attributes _ defaultValue =>
      if (Node.constraintAmong? attributes).isSome then none else defaultValue
  | .assignment left _ right => if left.conversion?.isSome then none else some right
  | .forEachStatement _ condition _ => some condition
  | _ => none

def variableAsks? (m : Inference) (use : Node) (path : Text) : Option Node :=
  let lowered := Text.lower (unscopedName path)
  if ["this", "true", "false"].any (lowered == Text.ofString ·) then none
  else ((m.script.rootOf? use).bind fun root => latestDeclaration? root use lowered).bind declaredBy?

def accessAsks? (target name : Node) (isStatic : Bool) : Option Node :=
  if name.stringConstant?.isNone || isStatic && target.typeExpression?.isSome then none
  else some target

def binaryAsks? (operator : Text) (left : Node) : Option Node :=
  let name := operatorName operator
  if isComparison name || ["as", "split", "join", ".."].any (name == Text.ofString ·) then none
  else some left

def unaryAsks? (operator : Text) (child : Node) : Option Node :=
  if ["!", "-not", ","].any (Text.lower operator == Text.ofString ·) then none else some child

/-- The node whose types the types of a node are made from, if they are made from any. -/
def asks? (m : Inference) (node : Node) : Option Node :=
  match node.form with
  | .paren inner => some inner
  | .subExpression body => body.statements.getLast?
  | .pipeline elements => elements.getLast?
  | .commandExpression expression _ => some expression
  | .assignment _ _ right => some right
  | .variable path _ => m.variableAsks? node path
  | .member target name isStatic => accessAsks? target name isStatic
  | .invokeMember target name isStatic _ => accessAsks? target name isStatic
  | .index target _ => some target
  | .binary operator left _ _ => binaryAsks? operator left
  | .unary operator child => unaryAsks? operator child
  | _ => none

variable {m : Inference}

section Agree

variable {f g : Node → List InferredType}

theorem ofDeclaration_congr {declaration : Node}
    (agree : ∀ part, declaredBy? declaration = some part → f part = g part) :
    m.ofDeclaration f declaration = m.ofDeclaration g declaration := by
  obtain ⟨number, extent, form⟩ := declaration
  cases form with
  | parameter attributes name defaultValue =>
      simp only [ofDeclaration, declaredBy?, Node.form] at agree ⊢
      cases constraint : Node.constraintAmong? attributes with
      | some typeName => rfl
      | none =>
          simp only [constraint, Option.isSome_none, Bool.false_eq_true, if_false] at agree
          cases defaultValue with
          | none => rfl
          | some value => simp [agree value rfl]
  | assignment left operator right =>
      simp only [ofDeclaration, declaredBy?, Node.form] at agree ⊢
      cases conversion : left.conversion? with
      | some pair => rfl
      | none => simpa [conversion] using agree
  | forEachStatement loopVariable condition body =>
      simp only [ofDeclaration, Node.form, agree condition rfl]
  | _ => rfl

theorem ofVariable_congr {use : Node} {path : Text}
    (agree : ∀ part, m.variableAsks? use path = some part → f part = g part) :
    m.ofVariable f use path = m.ofVariable g use path := by
  simp only [ofVariable, variableAsks?] at agree ⊢
  by_cases isThis : (Text.lower (unscopedName path) == Text.ofString "this") = true
  · simp [isThis]
  · by_cases isTruth : (Text.lower (unscopedName path) == Text.ofString "true" ||
        Text.lower (unscopedName path) == Text.ofString "false") = true
    · rw [if_neg isThis, if_neg isThis, if_pos isTruth, if_pos isTruth]
    · have isOther : (["this", "true", "false"].any
          (Text.lower (unscopedName path) == Text.ofString ·)) = false := by
        simpa using And.intro isThis (by simpa using isTruth)
      rw [isOther] at agree
      simp only [Bool.false_eq_true, if_false] at agree
      rw [if_neg isThis, if_neg isTruth, if_neg isThis, if_neg isTruth]
      cases declared : (m.script.rootOf? use).bind fun root =>
          latestDeclaration? root use (Text.lower (unscopedName path)) with
      | none => rfl
      | some declaration =>
          rw [declared] at agree
          exact ofDeclaration_congr agree

theorem ofAccess_congr {node target name : Node} {isStatic : Bool}
    (agree : ∀ part, accessAsks? target name isStatic = some part → f part = g part) :
    m.ofAccess f node target name isStatic = m.ofAccess g node target name isStatic := by
  simp only [ofAccess, accessAsks?] at agree ⊢
  cases isName : name.stringConstant? with
  | none => rfl
  | some memberName =>
      cases isStatic with
      | false => simp [agree target (by simp [isName])]
      | true =>
          cases isType : target.typeExpression? with
          | some typeName => rfl
          | none => simp [agree target (by simp [isName, isType])]

theorem ofBinary_congr {node left right : Node} {operator : Text}
    (agree : ∀ part, binaryAsks? operator left = some part → f part = g part) :
    m.ofBinary f node operator left right = m.ofBinary g node operator left right := by
  simp only [ofBinary, binaryAsks?] at agree ⊢
  by_cases compares : isComparison (operatorName operator) = true
  · rw [if_pos compares, if_pos compares]
  · split_ifs with asType split join range
    all_goals try rfl
    apply agree
    simp_all

theorem ofUnary_congr {child : Node} {operator : Text}
    (agree : ∀ part, unaryAsks? operator child = some part → f part = g part) :
    ofUnary f operator child = ofUnary g operator child := by
  simp only [ofUnary, unaryAsks?] at agree ⊢
  split_ifs with negates lists
  · rfl
  · rfl
  · apply agree
    simp_all

/-- The types of a node depend on those of the node that it asks for only. -/
theorem ofNode_congr (node : Node) (agree : ∀ part, m.asks? node = some part → f part = g part) :
    m.ofNode f node = m.ofNode g node := by
  have last : ∀ parts : List Node, (∀ part, parts.getLast? = some part → f part = g part) →
      (parts.getLast?.map f).getD [] = (parts.getLast?.map g).getD [] := by
    intro parts same
    cases isLast : parts.getLast? with
    | none => rfl
    | some part => exact same part isLast
  obtain ⟨number, extent, form⟩ := node
  cases form with
  | paren inner => exact agree inner rfl
  | subExpression body => exact last body.statements agree
  | pipeline elements => exact last elements agree
  | commandExpression expression redirections => exact agree expression rfl
  | assignment left operator right => exact agree right rfl
  | «variable» path splatted => exact ofVariable_congr agree
  | member target name isStatic => exact ofAccess_congr agree
  | invokeMember target name isStatic arguments => exact ofAccess_congr agree
  | index target position =>
      exact congrArg (fun types : List InferredType => types.flatMap m.elements) (agree target rfl)
  | binary operator left right errorPosition => exact ofBinary_congr agree
  | unary operator child => exact ofUnary_congr agree
  | constant value => cases value <;> rfl
  | _ => rfl

end Agree

/-! The nodes of the script that are not under way. -/

/-- The numbers of the script that a set lacks. -/
def outside (m : Inference) (known : List Nat) : List Nat :=
  (List.range m.script.nodes.size).filter (· ∉ known)

theorem mem_outside {known : List Nat} {id : Nat} :
    id ∈ m.outside known ↔ id < m.script.nodes.size ∧ id ∉ known := by
  simp [outside]

theorem outside_nil : m.outside [] = List.range m.script.nodes.size := by
  simp [outside]

theorem outside_cons (known : List Nat) (id : Nat) :
    m.outside (id :: known) = (m.outside known).erase id := by
  rw [outside, outside, (List.nodup_range.filter _).erase_eq_filter, List.filter_filter]
  apply List.filter_congr
  intro other _
  by_cases same : other = id <;> simp [same]

theorem outside_cons_length {known : List Nat} {id : Nat} (isOutside : id ∈ m.outside known) :
    (m.outside (id :: known)).length < (m.outside known).length := by
  have positive := List.length_pos_of_mem isOutside
  rw [outside_cons, List.length_erase_of_mem isOutside]
  omega

theorem outside_length_le {known more : List Nat} (grows : known ⊆ more) :
    (m.outside more).length ≤ (m.outside known).length :=
  (List.monotone_filter_right _ fun id lacks => by
    simpa using fun isKnown => (of_decide_eq_true lacks) (grows isKnown)).length_le

section Open

variable {lowered : Text} {isStatic : Bool} {root : Option Node} {definition : Node}
  {visited : List Nat}

/-- A class that was not looked at decides by a member of its own, or leaves it to its base types. -/
theorem ofClassMember_declared {member : ClassMember}
    (isOutside : definition.id ∈ m.outside visited)
    (declared : (definition.classMembers.find? fun member =>
      Text.lower member.name == lowered && member.isStatic == isStatic) = some member)
    (rest : List InferredType) :
    m.ofClassMember lowered isStatic root (m.outside visited) (.scriptClass definition :: rest) =
      (member.typeName.map fun typeName => [m.resolve typeName root]).getD
        (m.ofClassMember lowered isStatic root (m.outside (definition.id :: visited)) rest) := by
  rw [outside_cons, ofClassMember, dif_pos isOutside]
  simp only [declared]
  cases member.typeName <;> rfl

theorem ofClassMember_inherited
    (isOutside : definition.id ∈ m.outside visited)
    (declared : (definition.classMembers.find? fun member =>
      Text.lower member.name == lowered && member.isStatic == isStatic) = none)
    (rest : List InferredType) :
    m.ofClassMember lowered isStatic root (m.outside visited) (.scriptClass definition :: rest) =
      m.ofClassMember lowered isStatic root (m.outside (definition.id :: visited))
        ((definition.baseTypeNames.map fun name => m.resolve name root) ++ rest) := by
  rw [outside_cons, ofClassMember, dif_pos isOutside]
  simp only [declared]

end Open

section Made

variable (made : ∃ source tree linked, m.script = Script.ofTree source tree linked)

include made

theorem id_lt_nodes {n : Node} (isNode : n ∈ m.script.all) : n.id < m.script.nodes.size := by
  obtain ⟨source, tree, linked, isScript⟩ := made
  rw [isScript] at isNode ⊢
  have found := Script.node?_eq_some.mpr ⟨isNode, rfl⟩
  exact (Array.getElem?_eq_some_iff.mp found).1

theorem new_outside {n : Node} (isNode : n ∈ m.script.all) {known : List Nat}
    (isNew : n.id ∉ known) : n.id ∈ m.outside known :=
  mem_outside.mpr ⟨id_lt_nodes made isNode, isNew⟩

/-! What is asked for is a node of the script. -/

theorem declaredBy_mem_all {declaration part : Node} (isNode : declaration ∈ m.script.all)
    (isPart : declaredBy? declaration = some part) : part ∈ m.script.all := by
  apply part_mem_all made isNode
  obtain ⟨number, extent, form⟩ := declaration
  cases form with
  | parameter attributes name defaultValue =>
      simp only [declaredBy?, Node.form] at isPart
      split at isPart
      · cases isPart
      · subst isPart
        exact List.mem_append_right _ (List.mem_cons_of_mem _ List.mem_cons_self)
  | assignment left operator right =>
      simp only [declaredBy?, Node.form] at isPart
      split at isPart
      · cases isPart
      · cases isPart
        exact List.mem_cons_of_mem _ List.mem_cons_self
  | forEachStatement loopVariable condition body =>
      cases isPart
      exact List.mem_cons_of_mem _ List.mem_cons_self
  | _ => cases isPart

theorem asks_mem_all {node part : Node} (isNode : node ∈ m.script.all)
    (asks : m.asks? node = some part) : part ∈ m.script.all := by
  obtain ⟨number, extent, form⟩ := node
  cases form with
  | paren inner =>
      cases asks
      exact part_mem_all made isNode List.mem_cons_self
  | subExpression body =>
      exact statement_mem_all made isNode List.mem_cons_self (List.mem_of_getLast? asks)
  | pipeline elements => exact part_mem_all made isNode (List.mem_of_getLast? asks)
  | commandExpression expression redirections =>
      cases asks
      exact part_mem_all made isNode List.mem_cons_self
  | assignment left operator right =>
      cases asks
      exact part_mem_all made isNode (List.mem_cons_of_mem _ List.mem_cons_self)
  | «variable» path splatted =>
      simp only [Inference.asks?, Node.form, variableAsks?] at asks
      split at asks
      · cases asks
      · obtain ⟨declaration, isLatest, isPart⟩ := Option.bind_eq_some_iff.mp asks
        obtain ⟨root, isRoot, latest⟩ := Option.bind_eq_some_iff.mp isLatest
        exact declaredBy_mem_all made (below_mem_all made (rooted_at isNode root isRoot)
          (latestDeclaration_below latest)) isPart
  | member target name isStatic | invokeMember target name isStatic arguments =>
      simp only [Inference.asks?, Node.form, accessAsks?] at asks
      split at asks
      · cases asks
      · cases asks
        exact part_mem_all made isNode List.mem_cons_self
  | index target position =>
      cases asks
      exact part_mem_all made isNode List.mem_cons_self
  | binary operator left right errorPosition =>
      simp only [Inference.asks?, Node.form, binaryAsks?] at asks
      split at asks
      · cases asks
      · cases asks
        exact part_mem_all made isNode List.mem_cons_self
  | unary operator child =>
      simp only [Inference.asks?, Node.form, unaryAsks?] at asks
      split at asks
      · cases asks
      · cases asks
        exact part_mem_all made isNode List.mem_cons_self
  | _ => cases asks

/-! One node after the other. -/

/-- The types of a node, and the set of the nodes under way when the call returns; nothing where the
depth is used up. -/
def visit (m : Inference) : Nat → List Nat → Node → Option (List InferredType × List Nat)
  | 0, _, _ => none
  | depth + 1, visiting, node =>
      if node.id ∈ visiting then some ([], visiting)
      else
        match m.asks? node with
        | none => some (m.ofNode (fun _ => []) node, (node.id :: visiting).erase node.id)
        | some part =>
            (visit m depth (node.id :: visiting) part).map fun (types, returned) =>
              (m.ofNode (fun _ => types) node, returned.erase node.id)

/-- With more depth than there are nodes that are not under way a call returns, with the set that it
was given. -/
theorem visit_returns {depth : Nat} {visiting : List Nat} {node : Node}
    (isNode : node ∈ m.script.all) (enough : (m.outside visiting).length < depth) :
    m.visit depth visiting node = some (m.inferWithin (m.outside visiting) node, visiting) := by
  induction depth generalizing visiting node with
  | zero => omega
  | succ depth ih =>
      rw [visit, inferWithin]
      by_cases isOpen : node.id ∈ visiting
      · have isClosed : node.id ∉ m.outside visiting :=
          fun lacks => (mem_outside.mp lacks).2 isOpen
        rw [if_pos isOpen, dif_neg isClosed]
      · have isOutside := new_outside made isNode isOpen
        rw [if_neg isOpen, dif_pos isOutside, ← outside_cons]
        -- Both ask the same node, or none, and what they make of its types is the same.
        cases asks : m.asks? node with
        | none =>
            have same := ofNode_congr (m := m) node (f := fun _ => [])
              (g := fun part => m.inferWithin (m.outside (node.id :: visiting)) part)
              fun part isPart => by rw [asks] at isPart; cases isPart
            simp only [List.erase_cons_head, same]
        | some part =>
            have fewer := outside_cons_length isOutside
            have below : (m.outside (node.id :: visiting)).length < depth := by omega
            have same := ofNode_congr (m := m) node
              (f := fun _ => m.inferWithin (m.outside (node.id :: visiting)) part)
              (g := fun part => m.inferWithin (m.outside (node.id :: visiting)) part)
              fun other isPart => by rw [asks] at isPart; cases isPart; rfl
            simp only [ih (asks_mem_all made isNode asks) below, Option.map_some,
              List.erase_cons_head, same]

/-! One class after the other. -/

section Classes

variable {lowered : Text} {isStatic : Bool} {root : Option Node}

/-- The types of a member of one type, and the classes that were looked at by then. -/
def visitType (m : Inference) (lowered : Text) (isStatic : Bool) (root : Option Node)
    (visitClass : List Nat → Node → Option (List InferredType × List Nat)) (visited : List Nat) :
    InferredType → Option (List InferredType × List Nat)
  | .scriptClass definition => visitClass visited definition
  | .reflected typeName => some (m.ofReflectedMember typeName lowered isStatic root, visited)
  | .cim _ _ => some ([], visited)

/-- The types of a member of the first of some types that has it. -/
def visitTypes (m : Inference) (lowered : Text) (isStatic : Bool) (root : Option Node)
    (visitClass : List Nat → Node → Option (List InferredType × List Nat)) (visited : List Nat) :
    List InferredType → Option (List InferredType × List Nat)
  | [] => some ([], visited)
  | type :: rest =>
      match m.visitType lowered isStatic root visitClass visited type with
      | none => none
      | some (found, after) =>
          if found.isEmpty then visitTypes m lowered isStatic root visitClass after rest
          else some (found, after)

/-- The types of a member of a class, and the classes that were looked at; nothing where the depth is
used up. -/
def visitClass (m : Inference) (lowered : Text) (isStatic : Bool) (root : Option Node) :
    Nat → List Nat → Node → Option (List InferredType × List Nat)
  | 0, _, _ => none
  | depth + 1, visited, definition =>
      if definition.id ∈ visited then some ([], visited)
      else
        let declared := definition.classMembers.find? fun member =>
          Text.lower member.name == lowered && member.isStatic == isStatic
        match declared with
        | some member =>
            some ((member.typeName.map fun name => m.resolve name root).toList,
              definition.id :: visited)
        | none =>
            m.visitTypes lowered isStatic root (visitClass m lowered isStatic root depth)
              (definition.id :: visited)
              (definition.baseTypeNames.map fun name => m.resolve name root)

/-- The set has grown by nodes of the script that it lacked. -/
structure GrownTo (m : Inference) (visited after : List Nat) : Prop where
  grown : ∃ newer, after = newer ++ visited ∧ newer.Nodup ∧
    ∀ id ∈ newer, id ∉ visited ∧ ∃ n ∈ m.script.all, n.id = id

omit made in
theorem GrownTo.refl (visited : List Nat) : m.GrownTo visited visited :=
  ⟨[], rfl, List.nodup_nil, fun _ listed => absurd listed List.not_mem_nil⟩

omit made in
theorem GrownTo.trans {visited middle after : List Nat} (first : m.GrownTo visited middle)
    (second : m.GrownTo middle after) : m.GrownTo visited after := by
  obtain ⟨newer, rfl, distinct, isNew⟩ := first
  obtain ⟨newest, rfl, distinctNewest, isNewest⟩ := second
  refine ⟨newest ++ newer, (List.append_assoc ..).symm, ?_, ?_⟩
  · apply List.nodup_append.mpr
    refine ⟨distinctNewest, distinct, fun id isLater other isEarlier same => ?_⟩
    exact (isNewest id isLater).1 (List.mem_append_left _ (same ▸ isEarlier))
  · intro id listed
    rcases List.mem_append.mp listed with isLater | isEarlier
    · exact ⟨fun isKnown => (isNewest id isLater).1 (List.mem_append_right _ isKnown),
        (isNewest id isLater).2⟩
    · exact isNew id isEarlier

omit made in
theorem GrownTo.new {visited : List Nat} {definition : Node} (isNode : definition ∈ m.script.all)
    (isNew : definition.id ∉ visited) : m.GrownTo visited (definition.id :: visited) := by
  refine ⟨[definition.id], rfl, List.nodup_singleton _, fun id listed => ?_⟩
  rw [List.mem_singleton.mp listed]
  exact ⟨isNew, definition, isNode, rfl⟩

omit made in
theorem GrownTo.subset {visited after : List Nat} (grown : m.GrownTo visited after) :
    visited ⊆ after := by
  obtain ⟨newer, rfl, -⟩ := grown
  exact List.subset_append_right _ _

/-- A look through types ends with the types found and the set that the classes were added to; looking
through them with others behind goes on from there if nothing was found. -/
structure Ends (m : Inference) (lowered : Text) (isStatic : Bool) (root : Option Node)
    (visited : List Nat) (types : List InferredType) (result : Option (List InferredType × List Nat)) :
    Prop where
  ends : ∃ found after, result = some (found, after) ∧ m.GrownTo visited after ∧ ∀ rest,
    m.ofClassMember lowered isStatic root (m.outside visited) (types ++ rest) =
      if found.isEmpty then m.ofClassMember lowered isStatic root (m.outside after) rest else found

variable {visitClass : List Nat → Node → Option (List InferredType × List Nat)} {most : Nat}

/-- Every look at a class ends, if there are at most so many nodes that were not looked at. -/
def ClassesEnd (m : Inference) (lowered : Text) (isStatic : Bool) (root : Option Node)
    (visitClass : List Nat → Node → Option (List InferredType × List Nat)) (most : Nat) : Prop :=
  ∀ visited definition, definition ∈ m.script.all → (m.outside visited).length ≤ most →
    m.Ends lowered isStatic root visited [.scriptClass definition] (visitClass visited definition)

omit made in
theorem visitType_ends (classesEnd : m.ClassesEnd lowered isStatic root visitClass most)
    {visited : List Nat} {type : InferredType} (known : m.Known [type])
    (few : (m.outside visited).length ≤ most) :
    m.Ends lowered isStatic root visited [type]
      (m.visitType lowered isStatic root visitClass visited type) := by
  cases type with
  | scriptClass definition =>
      exact classesEnd visited definition (known definition List.mem_cons_self) few
  | reflected typeName =>
      refine ⟨_, visited, rfl, .refl visited, fun rest => ?_⟩
      rw [List.cons_append, ofClassMember]
      rfl
  | cim nameSpace className =>
      refine ⟨[], visited, rfl, .refl visited, fun rest => ?_⟩
      rw [List.cons_append, ofClassMember]
      rfl

omit made in
theorem visitTypes_ends (classesEnd : m.ClassesEnd lowered isStatic root visitClass most)
    {visited : List Nat} {types : List InferredType} (known : m.Known types)
    (few : (m.outside visited).length ≤ most) :
    m.Ends lowered isStatic root visited types
      (m.visitTypes lowered isStatic root visitClass visited types) := by
  induction types generalizing visited with
  | nil => exact ⟨[], visited, rfl, .refl visited, fun rest => rfl⟩
  | cons type types ih =>
      have isFirst : m.Known [type] := fun definition listed =>
        known definition (List.mem_singleton.mp listed ▸ List.mem_cons_self)
      obtain ⟨found, after, isResult, grown, goesOn⟩ := visitType_ends classesEnd isFirst few
      rw [visitTypes, isResult]
      dsimp only
      cases isFound : found.isEmpty with
      | true =>
          obtain ⟨foundLater, afterLater, isLater, grownLater, goesOnLater⟩ :=
            ih (fun definition listed => known definition (List.mem_cons_of_mem _ listed))
              ((outside_length_le grown.subset).trans few)
          refine ⟨foundLater, afterLater, (if_pos rfl).trans isLater, grown.trans grownLater, ?_⟩
          intro rest
          have split := goesOn (types ++ rest)
          rw [isFound, if_pos rfl] at split
          exact split.trans (goesOnLater rest)
      | false =>
          refine ⟨found, after, if_neg Bool.false_ne_true, grown, fun rest => ?_⟩
          have split := goesOn (types ++ rest)
          rw [isFound] at split ⊢
          exact split

/-- With more depth than there are nodes that were not looked at the look at a class ends. -/
theorem visitClass_ends (lowered : Text) (isStatic : Bool) (rooted : m.Rooted root) {depth : Nat}
    {visited : List Nat} {definition : Node} (isNode : definition ∈ m.script.all)
    (enough : (m.outside visited).length < depth) :
    m.Ends lowered isStatic root visited [.scriptClass definition]
      (m.visitClass lowered isStatic root depth visited definition) := by
  induction depth generalizing visited definition with
  | zero => omega
  | succ depth ih =>
      rw [visitClass]
      by_cases isKnown : definition.id ∈ visited
      · have isClosed : definition.id ∉ m.outside visited :=
          fun lacks => (mem_outside.mp lacks).2 isKnown
        refine ⟨[], visited, if_pos isKnown, .refl visited, fun rest => ?_⟩
        rw [List.cons_append, ofClassMember, dif_neg isClosed]
        rfl
      · have isOutside := new_outside made isNode isKnown
        have fewer := outside_cons_length isOutside
        have grown := GrownTo.new isNode isKnown
        rw [if_neg isKnown]
        cases declared : definition.classMembers.find? fun member =>
            Text.lower member.name == lowered && member.isStatic == isStatic with
        | some member =>
            refine ⟨_, _, rfl, grown, fun rest => ?_⟩
            rw [List.cons_append, List.nil_append, ofClassMember_declared isOutside declared]
            cases member.typeName <;> simp
        | none =>
            -- The class is looked at by now, so its base types have a smaller rest to go through.
            have known : m.Known (definition.baseTypeNames.map fun name => m.resolve name root) :=
              .map fun name _ => resolve_known made rooted name
            have basesEnd : m.ClassesEnd lowered isStatic root
                (m.visitClass lowered isStatic root depth)
                (m.outside (definition.id :: visited)).length :=
              fun later other isOther few => ih isOther (by omega)
            obtain ⟨found, after, isResult, grownLater, goesOn⟩ :=
              visitTypes_ends basesEnd known le_rfl
            refine ⟨found, after, isResult, grown.trans grownLater, fun rest => ?_⟩
            rw [List.cons_append, List.nil_append, ofClassMember_inherited isOutside declared]
            exact goesOn rest

end Classes

/-! Chains of calls. -/

/-- A call that is under way: of a node, with the nodes under way when it is made, or of a class, with
the classes that were looked at by then. -/
inductive Call where
  | atNode (visiting : List Nat) (n : Node)
  | atClass (visited : List Nat) (definition : Node)

/-- The one call makes the other: for the node that a node asks for, for the class whose member is
accessed, or for a class that is a base type of another. -/
inductive Calls (m : Inference) : Call → Call → Prop
  | part {visiting : List Nat} {n part : Node} (isNew : n.id ∉ visiting)
      (asks : m.asks? n = some part) :
      Calls m (.atNode visiting n) (.atNode (n.id :: visiting) part)
  | member {visiting : List Nat} {n definition : Node} (isNew : n.id ∉ visiting)
      (isTarget : ∃ target name isStatic, (n.form = .member target name isStatic ∨
        ∃ arguments, n.form = .invokeMember target name isStatic arguments) ∧
        (InferredType.scriptClass definition ∈ m.inferWithin (m.outside (n.id :: visiting)) target ∨
          ∃ typeName, m.resolveAt typeName n = .scriptClass definition)) :
      Calls m (.atNode visiting n) (.atClass [] definition)
  | base {visited later : List Nat} {definition base : Node} (isNew : definition.id ∉ visited)
      (grown : m.GrownTo (definition.id :: visited) later)
      (isBase : ∃ root name, m.Rooted root ∧ name ∈ definition.baseTypeNames ∧
        m.resolve name root = .scriptClass base) :
      Calls m (.atClass visited definition) (.atClass later base)

def Call.InScript (m : Inference) : Call → Prop
  | .atNode _ n => n ∈ m.script.all
  | .atClass _ definition => definition ∈ m.script.all

theorem Calls.inScript {outer inner : Call} (calls : m.Calls outer inner)
    (inScript : outer.InScript m) : inner.InScript m := by
  unfold Call.InScript at inScript ⊢
  cases calls with
  | part isNew asks => exact asks_mem_all made inScript asks
  | @member visiting n definition isNew isTarget =>
      obtain ⟨target, name, isStatic, isAccess, isInferred | ⟨typeName, resolved⟩⟩ := isTarget
      · have isPart : target ∈ n.children := by
          rcases isAccess with isMember | ⟨arguments, isInvocation⟩
          · rw [Node.children, isMember]
            exact List.mem_cons_self
          · rw [Node.children, isInvocation]
            exact List.mem_cons_self
        exact inferWithin_known made _ (part_mem_all made inScript isPart) definition isInferred
      · have isResolved := List.mem_singleton.mpr resolved.symm
        exact resolveAt_known made inScript typeName definition isResolved
  | base isNew grown isBase =>
      obtain ⟨root, name, rooted, -, resolved⟩ := isBase
      exact resolve_known made rooted name _ (List.mem_singleton.mpr resolved.symm)

/-- How far a chain of calls may still go; a call of a class makes no call of a node. -/
def Call.rest (m : Inference) : Call → Nat
  | .atNode visiting _ => (m.outside visiting).length + (m.script.nodes.size + 1)
  | .atClass visited _ => (m.outside visited).length

theorem Calls.rest_lt {outer inner : Call} (calls : m.Calls outer inner)
    (inScript : outer.InScript m) : inner.rest m < outer.rest m := by
  unfold Call.rest
  cases calls with
  | part isNew asks =>
      have fewer := outside_cons_length (new_outside made inScript isNew)
      exact Nat.add_lt_add_right fewer _
  | member isNew isTarget =>
      dsimp only
      rw [outside_nil, List.length_range]
      omega
  | base isNew grown isBase =>
      have fewer := outside_cons_length (new_outside made inScript isNew)
      exact lt_of_le_of_lt (outside_length_le grown.subset) fewer

theorem calls_wellFounded :
    WellFounded fun inner outer : Call => outer.InScript m ∧ m.Calls outer inner :=
  Subrelation.wf (fun both => both.2.rest_lt made both.1) (InvImage.wf (Call.rest m) wellFounded_lt)

/-- Inference ends for every script. No chain of calls goes on without end, and it stays in the script.
A call of a node returns, as soon as it may go as deep as there are nodes that are not under way, with
the set that it was given; a call of a class returns with its set grown by classes of the script. -/
theorem inference_ends :
    (WellFounded fun inner outer : Call => outer.InScript m ∧ m.Calls outer inner) ∧
    (∀ outer inner, outer.InScript m → m.Calls outer inner → inner.InScript m) ∧
    (∀ depth visiting node, node ∈ m.script.all → (m.outside visiting).length < depth →
      m.visit depth visiting node = some (m.inferWithin (m.outside visiting) node, visiting)) ∧
    (∀ node ∈ m.script.all, ∃ types, m.visit (m.script.nodes.size + 1) [] node = some (types, []) ∧
      m.infer node = dedupeBy InferredType.key types) ∧
    ∀ root, m.Rooted root → ∀ lowered isStatic depth visited definition,
      definition ∈ m.script.all → (m.outside visited).length < depth → ∃ types after,
        m.visitClass lowered isStatic root depth visited definition = some (types, after) ∧
        m.GrownTo visited after ∧
        types = m.ofClassMember lowered isStatic root (m.outside visited) [.scriptClass definition] := by
  refine ⟨calls_wellFounded made, fun _ _ inScript calls => calls.inScript made inScript,
    fun _ _ _ isNode enough => visit_returns made isNode enough, ?_, ?_⟩
  · intro node isNode
    have enough : (m.outside []).length < m.script.nodes.size + 1 := by
      rw [outside_nil, List.length_range]
      exact Nat.lt_succ_self _
    have returned := visit_returns made isNode enough
    rw [outside_nil] at returned
    exact ⟨_, returned, rfl⟩
  · intro root rooted lowered isStatic depth visited definition isNode enough
    obtain ⟨types, after, isResult, grown, goesOn⟩ :=
      visitClass_ends made lowered isStatic rooted isNode enough
    refine ⟨types, after, isResult, grown, ?_⟩
    have alone := goesOn []
    rw [List.append_nil] at alone
    rw [alone, ofClassMember]
    split
    · rename_i isEmpty
      exact List.isEmpty_iff.mp isEmpty
    · rfl

end Made

/-- A parameter whose default is the parameter itself, and a use of it: `param($a = $a) $a`. -/
def selfParameter : Node :=
  .new ⟨0, 17, "param($a = $a) $a"⟩ (.scriptBlock
    (some (.new ⟨0, 14, "param($a = $a)"⟩ (.paramBlock [] [.new ⟨6, 13, "$a = $a"⟩ (.parameter []
      (.new ⟨6, 8, "$a"⟩ (.variable "a" false)) (some (.new ⟨11, 13, "$a"⟩ (.variable "a" false))))])))
    [] [.new ⟨15, 17, "$a"⟩ (.variable "a" false)])

def selfInference : Inference where
  registry := Registry.bundled
  attachments := Attachments.bundled
  binder := none
  script := Script.ofTree "param($a = $a) $a" selfParameter

theorem selfParameter_ends :
    (WellFounded fun inner outer : Call =>
      outer.InScript selfInference ∧ selfInference.Calls outer inner) ∧
    ∃ types, selfInference.visit (selfInference.script.nodes.size + 1) []
      (.mk 5 ⟨15, 17, "$a"⟩ (.variable "a" false)) =
      some (types, []) := by
  have made : ∃ source tree linked, selfInference.script = Script.ofTree source tree linked :=
    ⟨_, _, _, rfl⟩
  have isNode : (.mk 5 ⟨15, 17, "$a"⟩ (.variable "a" false)) ∈ selfInference.script.all :=
    Script.child_mem_all Script.root_mem_all (List.mem_cons_of_mem _ List.mem_cons_self)
  obtain ⟨wellFounded, -, -, returns, -⟩ := inference_ends made
  obtain ⟨types, returned, -⟩ := returns _ isNode
  exact ⟨wellFounded, types, returned⟩

end Inference

end TabCompletion
