import TabCompletion.Proofs.Completion.ClassSources
import TabCompletion.Proofs.Completion.Offered

/-!
Inference answers no classes but those that the script defines. What a name resolves to is looked up
below the root of the node, which is a node of the script, and everything else is inferred from nodes
of the script again.
-/

namespace TabCompletion

namespace Script

theorem mem_upwards {s : Script} {n ancestor : Node} {fuel : Nat}
    (listed : ancestor ∈ s.upwards fuel n) : ancestor = n ∨ ancestor ∈ s.all := by
  induction fuel generalizing n with
  | zero => exact Or.inl (List.mem_singleton.mp listed)
  | succ fuel ih =>
      rw [upwards] at listed
      split at listed
      · rename_i parent isParent
        rcases List.mem_cons.mp listed with same | above
        · exact Or.inl same
        · rcases ih above with rfl | isNode
          · exact Or.inr (parent_mem_all isParent)
          · exact Or.inr isNode
      · exact Or.inl (List.mem_singleton.mp listed)

theorem ancestor_mem_all {s : Script} {n ancestor : Node} (isNode : n ∈ s.all)
    (listed : ancestor ∈ s.ancestors n) : ancestor ∈ s.all := by
  rcases mem_upwards listed with rfl | above
  · exact isNode
  · exact above

theorem rootOf_mem_all {s : Script} {n root : Node} (isNode : n ∈ s.all)
    (isRoot : s.rootOf? n = some root) : root ∈ s.all :=
  ancestor_mem_all isNode (List.mem_of_getLast? (Option.filter_eq_some_iff.mp isRoot).1)

end Script

/-- A fold that keeps what it has or takes what it comes to ends with one of these. -/
theorem mem_of_foldl_pick {α : Type} {pick : Option α → α → Option α}
    (picks : ∀ best a, pick best a = best ∨ pick best a = some a) {items : List α} {best : Option α}
    {last : α} (ends : items.foldl pick best = some last) : best = some last ∨ last ∈ items := by
  induction items generalizing best with
  | nil => exact Or.inl ends
  | cons first rest ih =>
      rw [List.foldl_cons] at ends
      rcases ih ends with picked | later
      · rcases picks best first with kept | taken
        · exact Or.inl (kept.symm.trans picked)
        · obtain ⟨rfl⟩ := taken.symm.trans picked
          exact Or.inr List.mem_cons_self
      · exact Or.inr (List.mem_cons_of_mem _ later)

namespace Inference

theorem latestDeclaration_below {root use declaration : Node} {lowered : Text}
    (isLatest : latestDeclaration? root use lowered = some declaration) :
    declaration ∈ root.preorder := by
  refine (mem_of_foldl_pick (fun best candidate => ?_) isLatest).resolve_left (by simp)
  split
  · split
    · split
      · exact Or.inr rfl
      · exact Or.inl rfl
    · exact Or.inr rfl
  · exact Or.inl rfl

/-- The classes among these types are nodes of the script. -/
def Known (m : Inference) (types : List InferredType) : Prop :=
  ∀ definition, .scriptClass definition ∈ types → definition ∈ m.script.all

variable {m : Inference}

theorem Known.nil : m.Known [] := fun _ listed => absurd listed List.not_mem_nil

theorem Known.foreign {type : InferredType} (other : ∀ definition, type ≠ .scriptClass definition) :
    m.Known [type] :=
  fun definition listed => absurd (List.mem_singleton.mp listed).symm (other definition)

theorem Known.flatMap {α : Type} {items : List α} {infer : α → List InferredType}
    (each : ∀ item ∈ items, m.Known (infer item)) : m.Known (items.flatMap infer) := by
  intro definition listed
  obtain ⟨item, isItem, isType⟩ := List.mem_flatMap.mp listed
  exact each item isItem definition isType

theorem Known.map {α : Type} {items : List α} {infer : α → InferredType}
    (each : ∀ item ∈ items, m.Known [infer item]) : m.Known (items.map infer) := by
  intro definition listed
  obtain ⟨item, isItem, isType⟩ := List.mem_map.mp listed
  exact each item isItem definition (List.mem_singleton.mpr isType.symm)

theorem Known.option {α : Type} {item : Option α} {infer : α → InferredType}
    (each : ∀ a, item = some a → m.Known [infer a]) : m.Known (item.map infer).toList := by
  cases item with
  | none => exact .nil
  | some a => exact each a rfl

/-- A node from which names are looked up, if there is one, is a node of the script. -/
def Rooted (m : Inference) (root : Option Node) : Prop :=
  ∀ top, root = some top → top ∈ m.script.all

variable (made : ∃ source tree linked, m.script = Script.ofTree source tree linked)

include made

theorem below_mem_all {top n : Node} (isNode : top ∈ m.script.all) (below : n ∈ top.preorder) :
    n ∈ m.script.all := by
  obtain ⟨source, tree, linked, isScript⟩ := made
  rw [isScript] at isNode ⊢
  exact Node.mem_preorder_trans isNode below

theorem part_mem_all {n part : Node} (isNode : n ∈ m.script.all) (isPart : part ∈ n.children) :
    part ∈ m.script.all := by
  obtain ⟨source, tree, linked, isScript⟩ := made
  rw [isScript] at isNode ⊢
  exact Script.child_mem_all isNode isPart

theorem resolve_known {root : Option Node} (rooted : m.Rooted root) (name : Text) :
    m.Known [m.resolve name root] := by
  intro definition listed
  obtain ⟨top, isRoot, below⟩ := resolve_below (List.mem_singleton.mp listed).symm
  exact below_mem_all made (rooted top isRoot) below

variable {n : Node} (isNode : n ∈ m.script.all)

omit made in
include isNode in
theorem rooted_at : m.Rooted (m.script.rootOf? n) := fun _ => Script.rootOf_mem_all isNode

include isNode in
theorem resolveAt_known (name : Text) : m.Known [m.resolveAt name n] :=
  resolve_known made (rooted_at isNode) name

include isNode in
theorem declaredOutput_known : m.Known (m.declaredOutput n) := by
  rw [declaredOutput]
  split
  · exact .map fun name _ => resolveAt_known made isNode name
  · exact .nil

include isNode in
theorem ofCommand_known : m.Known (m.ofCommand n) := by
  rw [ofCommand]
  split
  · exact .nil
  · dsimp only
    split
    · exact .option fun name _ => resolveAt_known made isNode name
    · split
      · split
        · exact .foreign fun _ => by simp
        · exact declaredOutput_known made isNode
      · exact declaredOutput_known made isNode

section Members

variable {root : Option Node} (rooted : m.Rooted root)

include rooted

theorem ofReflectedMember_known (typeName lowered : Text) (isStatic : Bool) :
    m.Known (m.ofReflectedMember typeName lowered isStatic root) := by
  rw [ofReflectedMember]
  dsimp only
  split
  · exact .nil
  · exact .option fun name _ => resolve_known made rooted name

theorem ofClassMember_known (lowered : Text) (isStatic : Bool) (unvisited : List Nat)
    (pending : List InferredType) :
    m.Known (m.ofClassMember lowered isStatic root unvisited pending) := by
  -- The induction follows the classes along their base types.
  fun_induction ofClassMember m lowered isStatic root unvisited pending with
  | case1 => exact .nil
  | case2 _ _ _ _ _ _ _ typeName _ => exact resolve_known made rooted typeName
  | case3 _ _ _ _ _ _ _ _ ih => exact ih
  | case4 _ _ _ _ _ _ _ ih => exact ih
  | case5 _ _ _ _ ih => exact ih
  | case6 _ _ _ _ _ ih => exact ih
  | case7 _ typeName _ _ _ => exact ofReflectedMember_known made rooted typeName lowered isStatic
  | case8 _ _ _ _ ih => exact ih

theorem ofMember_known {target : InferredType} (known : m.Known [target]) (name : Text)
    (isStatic : Bool) : m.Known (m.ofMember target name isStatic root) := by
  unfold ofMember
  dsimp only
  split
  · exact known
  · split
    · exact ofReflectedMember_known made rooted _ _ isStatic
    · exact ofClassMember_known made rooted _ isStatic _ _
    · exact .nil

end Members

omit made in
theorem elements_known (type : InferredType) : m.Known (m.elements type) := by
  cases type with
  | scriptClass | cim => exact .nil
  | reflected typeName =>
      rw [elements]
      split
      · exact .foreign fun _ => by simp
      · split
        · exact .foreign fun _ => by simp
        · split <;> exact .foreign fun _ => by simp

section Nodes

variable {infer : Node → List InferredType} (infers : ∀ part ∈ m.script.all, m.Known (infer part))

include isNode infers

/-- What is inferred from a part of a node. -/
theorem part_known {part : Node} (isPart : part ∈ n.children) : m.Known (infer part) :=
  infers part (part_mem_all made isNode isPart)

theorem ofDeclaration_known : m.Known (m.ofDeclaration infer n) := by
  obtain ⟨number, extent, form⟩ := n
  have part : ∀ child ∈ form.children, m.Known (infer child) :=
    fun child isChild => part_known made isNode infers isChild
  cases form with
  | parameter attributes name defaultValue =>
      rw [ofDeclaration]
      dsimp only [Node.form]
      split
      · exact resolveAt_known made isNode _
      · cases defaultValue with
        | none => exact .nil
        | some value =>
            exact part value (List.mem_append_right _ (List.mem_cons_of_mem _ List.mem_cons_self))
  | assignment left operator right =>
      rw [ofDeclaration]
      dsimp only [Node.form]
      split
      · exact resolveAt_known made isNode _
      · exact part right (List.mem_cons_of_mem _ List.mem_cons_self)
  | forEachStatement loopVariable condition body => exact .flatMap fun type _ => elements_known type
  | _ => exact .nil

theorem ofVariable_known (path : Text) : m.Known (m.ofVariable infer n path) := by
  rw [ofVariable]
  dsimp only
  split
  · refine .option fun definition isAround => fun other listed => ?_
    obtain ⟨rfl⟩ := List.mem_singleton.mp listed
    exact Script.ancestor_mem_all isNode (List.mem_of_find?_eq_some isAround)
  · split
    · exact .foreign fun _ => by simp [boolean]
    · split
      · rename_i declaration isLatest
        obtain ⟨root, isRoot, latest⟩ := Option.bind_eq_some_iff.mp isLatest
        exact ofDeclaration_known made (below_mem_all made (rooted_at isNode root isRoot)
          (latestDeclaration_below latest)) infers
      · exact .nil

theorem ofBinary_known {left right : Node} (isLeft : left ∈ n.children) (operator : Text) :
    m.Known (m.ofBinary infer n operator left right) := by
  rw [ofBinary]
  dsimp only
  split
  · exact .foreign fun _ => by simp [boolean]
  · split
    · exact .option fun typeName _ => resolveAt_known made isNode _
    · split
      · exact .foreign fun _ => by simp
      · split
        · exact .foreign fun _ => by simp [string]
        · split
          · exact .foreign fun _ => by simp [objectArray]
          · exact part_known made isNode infers isLeft

theorem ofUnary_known {child : Node} (isChild : child ∈ n.children) (operator : Text) :
    m.Known (ofUnary infer operator child) := by
  rw [ofUnary]
  dsimp only
  split
  · exact .foreign fun _ => by simp [boolean]
  · split
    · exact .foreign fun _ => by simp [objectArray]
    · exact part_known made isNode infers isChild

theorem ofAccess_known {target : Node} (isTarget : target ∈ n.children) (name : Node)
    (isStatic : Bool) : m.Known (m.ofAccess infer n target name isStatic) := by
  unfold ofAccess
  split
  · exact .nil
  · rename_i memberName _
    refine .flatMap fun type isType => ofMember_known made (rooted_at isNode) ?_ memberName isStatic
    intro definition listed
    obtain ⟨rfl⟩ := List.mem_singleton.mp listed
    split at isType
    · exact resolveAt_known made isNode _ definition isType
    · exact part_known made isNode infers isTarget definition isType

omit made isNode in
/-- What is inferred from the last of some nodes. -/
theorem last_known {parts : List Node} (areNodes : ∀ part ∈ parts, part ∈ m.script.all) :
    m.Known ((parts.getLast?.map infer).getD []) := by
  cases isLast : parts.getLast? with
  | none => exact .nil
  | some part => exact infers part (areNodes part (List.mem_of_getLast? isLast))

omit infers in
theorem statement_mem_all {body statement : Node} (isBody : body ∈ n.children)
    (isStatement : statement ∈ body.statements) : statement ∈ m.script.all := by
  refine part_mem_all made (part_mem_all made isNode isBody) ?_
  obtain ⟨number, extent, form⟩ := body
  cases form with
  | statementBlock statements => exact isStatement
  | scriptBlock params usings statements => exact List.mem_append_right _ isStatement
  | _ => cases isStatement

/-- The classes that are inferred from a node are nodes of the script if those are that are inferred
from its parts and from what declares its variables. -/
theorem ofNode_known : m.Known (m.ofNode infer n) := by
  obtain ⟨number, extent, form⟩ := n
  have part : ∀ child ∈ form.children, m.Known (infer child) :=
    fun child isChild => part_known made isNode infers isChild
  cases form with
  | constant value =>
      cases value with
      | null => exact .nil
      | bool | number => exact .foreign fun _ => by simp [boolean]
  | stringConstant | expandableString => exact .foreign fun _ => by simp [string]
  | arrayLiteral | arrayExpression => exact .foreign fun _ => by simp [objectArray]
  | hashtable | scriptBlockExpression | typeExpression => exact .foreign fun _ => by simp
  | convert => exact resolveAt_known made isNode _
  | paren inner => exact part inner (List.mem_singleton_self inner)
  | subExpression body =>
      exact last_known infers fun statement isStatement =>
        statement_mem_all made isNode (List.mem_singleton_self body) isStatement
  | pipeline elements =>
      exact last_known infers fun element isElement => part_mem_all made isNode isElement
  | commandExpression expression redirections => exact part expression List.mem_cons_self
  | command elements invocation redirections => exact ofCommand_known made isNode
  | assignment left operator right =>
      exact part right (List.mem_cons_of_mem _ (List.mem_singleton_self right))
  | «variable» path splatted => exact ofVariable_known made isNode infers path
  | member target name isStatic =>
      exact ofAccess_known made isNode infers List.mem_cons_self name isStatic
  | invokeMember target name isStatic arguments =>
      exact ofAccess_known made isNode infers List.mem_cons_self name isStatic
  | index target position => exact .flatMap fun type _ => elements_known type
  | binary operator left right errorPosition =>
      exact ofBinary_known made isNode infers List.mem_cons_self operator
  | unary operator child =>
      exact ofUnary_known made isNode infers (List.mem_singleton_self child) operator
  | _ => exact .nil

end Nodes

theorem inferWithin_known (opened : List Nat) {n : Node} (isNode : n ∈ m.script.all) :
    m.Known (m.inferWithin opened n) := by
  -- The induction is on the nodes that are still open.
  fun_induction inferWithin m opened n with
  | case1 opened n isOpen ih => exact ofNode_known made isNode fun part isPart => ih part isPart
  | case2 => exact .nil

/-- A class that is inferred from a node of the script is a node of the script. -/
theorem infer_known {n : Node} (isNode : n ∈ m.script.all) : m.Known (m.infer n) :=
  fun definition listed => inferWithin_known made _ isNode definition (mem_of_mem_dedupeBy listed)

end Inference

end TabCompletion
