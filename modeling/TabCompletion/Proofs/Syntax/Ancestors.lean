import TabCompletion.Proofs.Syntax.Numbering

/-!
The way from a node to the root of its script. A parent is numbered before its children, so in a linked
script every node but the root has a parent with a smaller number, and the way up from any node ends at
the root.
-/

namespace TabCompletion

/-! Nodes of a tree. -/

theorem Node.preorder_sublist {root n : Node} (listed : n ∈ root.preorder) :
    n.preorder.Sublist root.preorder := by
  rcases Node.mem_preorder_iff.mp listed with rfl | ⟨child, isChild, below⟩
  · exact List.Sublist.refl _
  · have smaller := Node.sizeOf_child_lt isChild
    have inside : child.preorder.Sublist (root.children.flatMap Node.preorder) :=
      List.sublist_flatten_of_mem (List.mem_map_of_mem isChild)
    rw [Node.preorder_eq root]
    exact ((Node.preorder_sublist below).trans inside).cons root
termination_by sizeOf root

theorem Node.exists_parent {root n : Node} (listed : n ∈ root.preorder) (other : n ≠ root) :
    ∃ parent ∈ root.preorder, n ∈ parent.children := by
  rcases Node.mem_preorder_iff.mp listed with same | ⟨child, isChild, below⟩
  · exact absurd same other
  · have smaller := Node.sizeOf_child_lt isChild
    by_cases same : n = child
    · exact ⟨root, root.mem_preorder_self, same ▸ isChild⟩
    · obtain ⟨parent, isNode, isParent⟩ := Node.exists_parent below same
      exact ⟨parent, Node.mem_preorder_iff.mpr (Or.inr ⟨child, isChild, isNode⟩), isParent⟩
termination_by sizeOf root

theorem Node.mem_parentLinks {root : Node} {below above : Nat} :
    (below, above) ∈ root.parentLinks ↔
      ∃ n ∈ root.preorder, ∃ child ∈ n.children, child.id = below ∧ n.id = above := by
  simp only [Node.parentLinks, List.mem_flatMap, List.mem_map, Prod.mk.injEq]

namespace Script

/-! Numbers of a script. -/

section Numbers

variable {source : Text} {tree : Node} {linked : Bool}

theorem ids_eq : (ofTree source tree linked).all.map Node.id =
    List.range' 0 (ofTree source tree linked).all.length := by
  have numbers := (tree.number_numbered 0).numbers
  have size := congrArg List.length numbers
  rw [List.length_map, List.length_range', List.flatMap_singleton] at size
  rw [List.flatMap_singleton] at numbers
  rw [all_ofTree, numbers, size]

theorem getElem?_all {i : Nat} {n : Node} :
    (ofTree source tree linked).all[i]? = some n ↔ n ∈ (ofTree source tree linked).all ∧ n.id = i := by
  have atPlace : ∀ {i : Nat} {n : Node}, (ofTree source tree linked).all[i]? = some n → n.id = i := by
    intro i n found
    have number := congrArg (·[i]?) (@ids_eq source tree linked)
    simp only [List.getElem?_map, found, Option.map_some] at number
    obtain ⟨inside, isNumber⟩ := List.getElem?_eq_some_iff.mp number.symm
    rw [List.getElem_range'] at isNumber
    omega
  constructor
  · exact fun found => ⟨List.mem_of_getElem? found, atPlace found⟩
  · rintro ⟨listed, rfl⟩
    obtain ⟨i, found⟩ := List.mem_iff_getElem?.mp listed
    rw [atPlace found]
    exact found

theorem node?_eq_some {i : Nat} {n : Node} :
    (ofTree source tree linked).node? i = some n ↔ n ∈ (ofTree source tree linked).all ∧ n.id = i := by
  rw [← getElem?_all, all, Array.getElem?_toList]
  rfl

theorem id_lt_of_child {n child : Node} (listed : n ∈ (ofTree source tree linked).all)
    (isChild : child ∈ n.children) : n.id < child.id := by
  have ascending : ((ofTree source tree linked).all.map Node.id).Pairwise (· < ·) := by
    rw [ids_eq]
    exact List.pairwise_lt_range'
  -- The nodes below a node are listed in one piece, and it is the first of them.
  have below := ascending.sublist ((Node.preorder_sublist listed).map Node.id)
  rw [Node.preorder_eq, List.map_cons, List.pairwise_cons] at below
  refine below.1 child.id (List.mem_map_of_mem (List.mem_flatMap.mpr ⟨child, isChild, ?_⟩))
  exact child.mem_preorder_self

theorem root_id : (ofTree source tree linked).root.id = 0 := by
  cases tree
  rfl

theorem eq_root {n : Node} (listed : n ∈ (ofTree source tree linked).all) (isFirst : n.id = 0) :
    n = (ofTree source tree linked).root :=
  eq_of_same listed root_mem_all (beq_iff_eq.mpr (isFirst.trans root_id.symm))

end Numbers

/-! Links. -/

/-- The table of parents after some links were put into it. -/
def linkAll (links : List (Nat × Nat)) (table : Array (Option Nat)) : Array (Option Nat) :=
  links.foldl (fun table (child, parent) => table.setIfInBounds child (some parent)) table

/-- A table shows a link of every number that is linked, and nothing new for the others. -/
theorem getElem?_linkAll (links : List (Nat × Nat)) (table : Array (Option Nat)) (child : Nat) :
    ((∃ parent, (child, parent) ∈ links) → child < table.size →
      ∃ parent, (child, parent) ∈ links ∧ (linkAll links table)[child]? = some (some parent)) ∧
    ((∀ parent, (child, parent) ∉ links) → (linkAll links table)[child]? = table[child]?) := by
  induction links generalizing table with
  | nil => exact ⟨fun ⟨_, listed⟩ => absurd listed List.not_mem_nil, fun _ => rfl⟩
  | cons first rest ih =>
      obtain ⟨below, above⟩ := first
      obtain ⟨linked, unlinked⟩ := ih (table.setIfInBounds below (some above))
      rw [Array.size_setIfInBounds] at linked
      constructor
      · rintro ⟨parent, listed⟩ inside
        by_cases later : ∃ parent, (child, parent) ∈ rest
        · obtain ⟨parent, isLater, found⟩ := linked later inside
          exact ⟨parent, List.mem_cons_of_mem _ isLater, found⟩
        · -- The last link of the number is the first of the list.
          rw [not_exists] at later
          cases (List.mem_cons.mp listed).resolve_right (later parent)
          refine ⟨above, List.mem_cons_self, (unlinked later).trans ?_⟩
          rw [Array.getElem?_setIfInBounds_self_of_lt inside]
      · intro absent
        rw [linkAll, List.foldl_cons, ← linkAll, unlinked fun parent listed =>
          absent parent (List.mem_cons_of_mem _ listed), Array.getElem?_setIfInBounds_ne]
        rintro rfl
        exact absent above List.mem_cons_self

section Linked

variable {source : Text} {tree : Node}

theorem parents_linked : (ofTree source tree true).parents =
    linkAll (ofTree source tree true).root.parentLinks
      (Array.replicate (ofTree source tree true).nodes.size none) := rfl

theorem parents_unlinked : (ofTree source tree false).parents =
    Array.replicate (ofTree source tree false).nodes.size none := rfl

theorem linked_of_parent {linked : Bool} {n parent : Node}
    (found : (ofTree source tree linked).parent? n = some parent) : linked = true := by
  cases linked with
  | true => rfl
  | false =>
      rw [parent?, parents_unlinked, Array.getElem?_replicate] at found
      split at found <;> cases found

theorem id_lt_size {n : Node} (listed : n ∈ (ofTree source tree true).all) :
    n.id < (ofTree source tree true).nodes.size :=
  (List.getElem?_eq_some_iff.mp (getElem?_all.mpr ⟨listed, rfl⟩)).1

/-- Every node but the root has a parent, which has it as a child and a smaller number. -/
theorem parent?_linked {n : Node} (listed : n ∈ (ofTree source tree true).all)
    (other : n ≠ (ofTree source tree true).root) :
    ∃ parent ∈ (ofTree source tree true).all, n ∈ parent.children ∧ parent.id < n.id ∧
      (ofTree source tree true).parent? n = some parent := by
  have inside := id_lt_size listed
  obtain ⟨above, isAbove, isChild⟩ := Node.exists_parent listed other
  obtain ⟨number, isLink, found⟩ := (getElem?_linkAll (ofTree source tree true).root.parentLinks
    (Array.replicate (ofTree source tree true).nodes.size none) n.id).1
      ⟨above.id, Node.mem_parentLinks.mpr ⟨above, isAbove, n, isChild, rfl, rfl⟩⟩
      (by rwa [Array.size_replicate])
  obtain ⟨parent, isNode, child, isBelow, same, rfl⟩ := Node.mem_parentLinks.mp isLink
  have isNode : parent ∈ (ofTree source tree true).all := isNode
  obtain rfl := eq_of_same (child_mem_all isNode isBelow) listed (beq_iff_eq.mpr same)
  refine ⟨parent, isNode, isBelow, id_lt_of_child isNode isBelow, ?_⟩
  rw [parent?, parents_linked, found]
  exact node?_eq_some.mpr ⟨isNode, rfl⟩

theorem parent?_root :
    (ofTree source tree true).parent? (ofTree source tree true).root = none := by
  have unlinked : ∀ parent, (0, parent) ∉ (ofTree source tree true).root.parentLinks := by
    intro number isLink
    obtain ⟨parent, isNode, child, isChild, isFirst, -⟩ := Node.mem_parentLinks.mp isLink
    have behind := @id_lt_of_child source tree true _ _ isNode isChild
    omega
  rw [parent?, root_id, parents_linked, (getElem?_linkAll _ _ 0).2 unlinked, Array.getElem?_replicate]
  split <;> rfl

theorem upwards_ends {fuel : Nat} {n : Node} (listed : n ∈ (ofTree source tree true).all)
    (enough : n.id ≤ fuel) :
    ((ofTree source tree true).upwards fuel n).getLast? = some (ofTree source tree true).root := by
  induction fuel generalizing n with
  | zero =>
      obtain rfl := eq_root listed (Nat.le_zero.mp enough)
      rfl
  | succ fuel ih =>
      by_cases isRoot : n = (ofTree source tree true).root
      · rw [upwards, isRoot, parent?_root]
        rfl
      · obtain ⟨parent, isNode, -, before, found⟩ := parent?_linked listed isRoot
        rw [upwards, found]
        dsimp only
        rw [List.getLast?_cons, ih isNode (by omega)]
        rfl

end Linked

/-- In a script in which some node has a parent, every node has the root as its outermost ancestor. -/
theorem rootOf_eq {s : Script} (made : ∃ source tree linked, s = ofTree source tree linked)
    {child parent : Node} (found : s.parent? child = some parent) (isBlock : s.root.kind = .scriptBlock)
    {n : Node} (listed : n ∈ s.all) : s.rootOf? n = some s.root := by
  obtain ⟨source, tree, linked, rfl⟩ := made
  obtain rfl := linked_of_parent found
  rw [rootOf?, ancestors, upwards_ends listed (Nat.le_of_lt (id_lt_size listed)), Option.filter_some,
    isBlock]
  rfl

end Script

end TabCompletion
