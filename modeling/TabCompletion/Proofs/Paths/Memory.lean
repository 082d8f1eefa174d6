import Mathlib.Data.List.Nodup
import TabCompletion.Paths.Memory
import TabCompletion.Proofs.Assoc

/-!
The tree of a list of paths. A path leads, part by part, from one container to another, and where it
leads determines its normalized form; the container that is reached lists its items under their own
paths, each once.
-/

namespace TabCompletion

theorem Text.splitOn_eq (separator : CodeUnit) (t : Text) :
    Text.splitOn separator t = List.splitOn separator t := by
  induction t with
  | nil => rfl
  | cons u rest ih =>
      rw [Text.splitOn, ih, List.splitOn_cons_eq_if_modifyHead]
      cases split : List.splitOn separator rest with
      | nil => exact absurd split (List.splitOn_ne_nil _ _)
      | cons piece pieces => rfl

namespace MemoryPaths

/-! Where a path leads. -/

section Walk

variable {parts : List Text} {name directory : Text}

/-- Goes on from a place, whose parts are given last first, by one part. -/
def enter (parts : List Text) (part : Text) : List Text :=
  if part.isEmpty || part == Text.ofString "." then parts
  else if part == Text.ofString ".." then parts.drop 1
  else part :: parts

/-- The place to which a path leads from another one. -/
def walk (parts : List Text) (path : Text) : List Text := (Text.splitOn '/' path).foldl enter parts

/-- A part that leads into an item. -/
structure IsName (part : Text) : Prop where
  filled : part ≠ []
  notHere : part ≠ Text.ofString "."
  notAbove : part ≠ Text.ofString ".."
  slashless : ('/' : CodeUnit) ∉ part

/-- Only names are on the way to the place. -/
def Proper (parts : List Text) : Prop := ∀ part ∈ parts, IsName part

theorem proper_nil : Proper [] := fun _ listed => absurd listed List.not_mem_nil

theorem proper_cons : Proper (name :: parts) ↔ IsName name ∧ Proper parts := List.forall_mem_cons

theorem enter_name (isName : IsName name) : enter parts name = name :: parts := by
  have filled : name.isEmpty = false := List.isEmpty_eq_false_iff.mpr isName.filled
  rw [enter, filled, beq_eq_false_iff_ne.mpr isName.notHere, beq_eq_false_iff_ne.mpr isName.notAbove]
  rfl

theorem enter_proper (proper : Proper parts) {part : Text} (slashless : ('/' : CodeUnit) ∉ part) :
    Proper (enter parts part) := by
  rw [enter]
  split
  · exact proper
  · rename_i plain
    rw [Bool.or_eq_true, not_or, List.isEmpty_iff, beq_iff_eq] at plain
    split
    · exact fun part listed => proper part (List.mem_of_mem_drop listed)
    · rename_i notAbove
      exact proper_cons.mpr ⟨⟨plain.1, plain.2, fun same => notAbove (beq_iff_eq.mpr same), slashless⟩,
        proper⟩

theorem walk_slash (parts : List Text) (front rest : Text) :
    walk parts (front ++ "/" ++ rest) = walk (walk parts front) rest := by
  have apart : front ++ "/" ++ rest = front ++ ('/' : CodeUnit) :: rest := List.append_cons _ _ _ |>.symm
  rw [apart]
  simp only [walk, Text.splitOn_eq, List.splitOn_append_cons_self, List.foldl_append]

theorem walk_nil (parts : List Text) : walk parts [] = parts := rfl

theorem walk_name (isName : IsName name) : walk parts name = name :: parts := by
  rw [walk, Text.splitOn_eq, List.splitOn_eq_singleton isName.slashless]
  exact enter_name isName

theorem walk_trailing (parts : List Text) (path : Text) : walk parts (path ++ "/") = walk parts path := by
  rw [← List.append_nil (path ++ _), walk_slash, walk_nil]

/-- Behind a slash the path goes on from where it has led. -/
theorem walk_directory (ends : directory.getLast? = some ('/' : CodeUnit)) (parts : List Text)
    (rest : Text) : walk parts (directory ++ rest) = walk (walk parts directory) rest := by
  obtain ⟨front, rfl⟩ := List.getLast?_eq_some_iff.mp ends
  have whole : walk parts (front ++ [('/' : CodeUnit)]) = walk parts front := walk_trailing parts front
  rw [whole]
  exact walk_slash parts front rest

theorem foldl_enter_proper {pieces : List Text} (slashless : ∀ piece ∈ pieces, ('/' : CodeUnit) ∉ piece)
    (proper : Proper parts) : Proper (pieces.foldl enter parts) := by
  induction pieces generalizing parts with
  | nil => exact proper
  | cons piece rest ih =>
      rw [List.forall_mem_cons] at slashless
      exact ih slashless.2 (enter_proper proper slashless.1)

theorem splitOn_slashless {path piece : Text} (isPiece : piece ∈ Text.splitOn '/' path) :
    ('/' : CodeUnit) ∉ piece := by
  induction path generalizing piece with
  | nil =>
      rw [List.mem_singleton.mp isPiece]
      exact List.not_mem_nil
  | cons u rest ih =>
      rw [Text.splitOn] at isPiece
      split at isPiece
      · rename_i none
        rw [Text.splitOn_eq] at none
        exact absurd none (List.splitOn_ne_nil _ _)
      · rename_i first more split
        rw [split] at ih
        split at isPiece
        · rcases List.mem_cons.mp isPiece with rfl | later
          · exact List.not_mem_nil
          · exact ih later
        · rename_i other
          rcases List.mem_cons.mp isPiece with rfl | later
          · rw [List.mem_cons, not_or]
            exact ⟨fun same => other (beq_iff_eq.mpr same.symm), ih List.mem_cons_self⟩
          · exact ih (List.mem_cons_of_mem _ later)

theorem walk_proper (proper : Proper parts) (path : Text) : Proper (walk parts path) :=
  foldl_enter_proper (fun _ isPiece => splitOn_slashless isPiece) proper

theorem foldl_enter_names {names : List Text} (proper : Proper names) (parts : List Text) :
    names.foldl enter parts = names.reverse ++ parts := by
  induction names generalizing parts with
  | nil => rfl
  | cons name rest ih =>
      obtain ⟨isName, others⟩ := proper_cons.mp proper
      rw [List.foldl_cons, enter_name isName, ih others]
      simp

end Walk

/-! Normalized paths. -/

section Rooted

variable {parts : List Text} {name : Text}

/-- The normalized path of a place. -/
def rooted (parts : List Text) : Text := "/" ++ Text.join "/" parts.reverse

theorem normalize_eq (path : Text) : normalize path = rooted (walk [] path) := rfl

theorem join_concat {separator last : Text} {pieces : List Text} (filled : pieces ≠ []) :
    Text.join separator (pieces ++ [last]) = Text.join separator pieces ++ separator ++ last := by
  change separator.intercalate (pieces ++ [last]) = separator.intercalate pieces ++ separator ++ last
  induction pieces with
  | nil => exact absurd rfl filled
  | cons first rest ih =>
      rw [List.cons_append, List.intercalate_cons_of_ne_nil (by simp)]
      by_cases none : rest = []
      · simp [none]
      · rw [ih none, List.intercalate_cons_of_ne_nil none]
        simp only [List.append_assoc]

theorem walk_rooted (proper : Proper parts) : walk [] (rooted parts) = parts := by
  have behind : walk [] (rooted parts) = walk [] (Text.join "/" parts.reverse) := walk_slash [] [] _
  rw [behind]
  by_cases none : parts = []
  · rw [none]
    rfl
  · have properReversed : Proper parts.reverse := fun part listed => proper part (List.mem_reverse.mp listed)
    have split : List.splitOn ('/' : CodeUnit) (Text.join "/" parts.reverse) = parts.reverse :=
      List.splitOn_intercalate _ (fun part listed => (properReversed part listed).slashless)
        (by simpa using none)
    rw [walk, Text.splitOn_eq, split, foldl_enter_names properReversed, List.reverse_reverse,
      List.append_nil]

theorem rooted_injective {others : List Text} (proper : Proper parts) (properOthers : Proper others)
    (same : rooted parts = rooted others) : parts = others := by
  rw [← walk_rooted proper, same, walk_rooted properOthers]

/-- The normalized path of an item is its name behind a slash, behind a path to its container. -/
theorem rooted_cons (proper : Proper parts) (name : Text) :
    ∃ front, rooted (name :: parts) = front ++ "/" ++ name ∧ walk [] front = parts := by
  -- Only the root is its own slash.
  by_cases none : parts = []
  · subst none
    exact ⟨[], by simp [rooted, Text.join, Text.ofString, Text.unitsOfPoint], rfl⟩
  · refine ⟨rooted parts, ?_, walk_rooted proper⟩
    rw [rooted, rooted, List.reverse_cons, join_concat (by simpa using none)]
    simp only [List.append_assoc]

theorem lastIndexOf?_slash {front : Text} (slashless : ('/' : CodeUnit) ∉ name) :
    Text.lastIndexOf? "/" (front ++ "/" ++ name) = some front.length := by
  have absent : Text.lastIndexOf? "/" name = none := by
    induction name with
    | nil => rfl
    | cons u rest ih =>
        rw [List.mem_cons, not_or] at slashless
        have other : (Text.ofString "/").isPrefixOf (u :: rest) = false := by
          simpa [Text.ofString, Text.unitsOfPoint, List.isPrefixOf] using slashless.1
        rw [Text.lastIndexOf?, ih slashless.2, other]
        rfl
  induction front with
  | nil =>
      change Text.lastIndexOf? "/" (('/' : CodeUnit) :: name) = some 0
      rw [Text.lastIndexOf?, absent]
      rfl
  | cons u rest ih =>
      rw [List.cons_append, List.cons_append, Text.lastIndexOf?, ih]
      rfl

theorem parentOf_rooted (proper : Proper (name :: parts)) :
    parentOf (rooted (name :: parts)) = rooted parts := by
  obtain ⟨isName, properParts⟩ := proper_cons.mp proper
  obtain ⟨front, split, leads⟩ := rooted_cons properParts name
  rw [parentOf, split, lastIndexOf?_slash isName.slashless, Option.getD_some, List.append_assoc,
    List.take_left' rfl, normalize_eq, leads]

theorem nameOf_rooted (proper : Proper (name :: parts)) : nameOf (rooted (name :: parts)) = name := by
  obtain ⟨isName, properParts⟩ := proper_cons.mp proper
  obtain ⟨front, split, -⟩ := rooted_cons properParts name
  rw [nameOf, split, lastIndexOf?_slash isName.slashless]
  exact List.drop_left' List.length_append

end Rooted

/-! The items of a tree. -/

section Items

variable {tree : Tree} {parts more : List Text} {name : Text} {item : PathItem}

/-- An item that lies in the container at a place. -/
structure LiesIn (parts : List Text) (item : PathItem) : Prop where
  isName : IsName item.name
  path : item.path = rooted (item.name :: parts)
  hidden : item.isHidden = Text.startsWith item.name "."

theorem LiesIn.path_filled (lies : LiesIn parts item) : item.path ≠ [] :=
  lies.path ▸ List.cons_ne_nil _ _

theorem LiesIn.proper (lies : LiesIn parts item) (proper : Proper parts) : Proper (item.name :: parts) :=
  proper_cons.mpr ⟨lies.isName, proper⟩

/-- The items that are listed for a place. -/
def Tree.itemsAt (tree : Tree) (parts : List Text) : List PathItem :=
  (Assoc.get? tree (rooted parts)).getD []

/-- A tree lists for each place what lies there, and no path twice. -/
structure Tree.Sound (tree : Tree) : Prop where
  lies : ∀ {parts item}, Proper parts → item ∈ tree.itemsAt parts → LiesIn parts item
  distinct : ∀ {parts}, Proper parts → ((tree.itemsAt parts).map PathItem.path).Nodup

/-- The item of a name in the container at a place. -/
def itemOf (parts : List Text) (name : Text) (isContainer : Bool) : PathItem :=
  { name, path := rooted (name :: parts), isContainer, isHidden := Text.startsWith name "." }

theorem itemsAt_set (path : Text) (items : List PathItem) :
    Tree.itemsAt (Assoc.set tree path items) more =
      if rooted more = path then items else tree.itemsAt more := by
  rw [Tree.itemsAt, Assoc.get?_set]
  split <;> rfl

theorem itemsAt_ensure (path : Text) (isContainer : Bool) :
    Tree.itemsAt (if isContainer && !Assoc.has tree path then Assoc.set tree path [] else tree) more =
      tree.itemsAt more := by
  split
  · rename_i absent
    -- What was absent is listed as empty before and after.
    rw [itemsAt_set]
    split
    · rename_i same
      have missing : Assoc.get? tree path = none := by
        simpa [Assoc.has] using (Bool.and_eq_true_iff.mp absent).2
      rw [Tree.itemsAt, same, missing]
      rfl
    · rfl
  · rfl

/-- An item is put behind what its container lists, and no other container is changed. -/
theorem itemsAt_put (tree : Tree) (proper : Proper (name :: parts)) (properMore : Proper more)
    (isContainer : Bool) :
    (tree.put (rooted (name :: parts)) isContainer).itemsAt more = tree.itemsAt more ∨
      more = parts ∧ (tree.put (rooted (name :: parts)) isContainer).itemsAt more =
        tree.itemsAt more ++ [itemOf parts name isContainer] := by
  have properParts := (proper_cons.mp proper).2
  simp only [Tree.put, itemsAt_ensure, parentOf_rooted proper, nameOf_rooted proper]
  cases found : Assoc.get? tree (rooted parts) with
  | none => exact Or.inl rfl
  | some items =>
      simp only [itemsAt_set]
      split
      · rename_i same
        obtain rfl := rooted_injective properMore properParts same
        refine Or.inr ⟨rfl, ?_⟩
        rw [Tree.itemsAt, found]
        rfl
      · exact Or.inl rfl

theorem holds_rooted (proper : Proper (name :: parts)) :
    tree.holds (rooted (name :: parts)) = true ↔
      rooted (name :: parts) ∈ (tree.itemsAt parts).map PathItem.path := by
  rw [Tree.holds, parentOf_rooted proper, List.any_eq_true, List.mem_map]
  simp only [beq_iff_eq]
  rfl

theorem rooted_ne_root (proper : Proper (name :: parts)) :
    (rooted (name :: parts) == Text.ofString "/") = false := by
  rw [beq_eq_false_iff_ne]
  intro same
  have root : rooted (name :: parts) = rooted [] := same
  cases rooted_injective proper proper_nil root

/-- Adding an item changes only containers that are above it. -/
theorem itemsAt_addWithin (fuel : Nat) (proper : Proper parts) (isContainer : Bool)
    (properMore : Proper more) (below : parts.length ≤ more.length) :
    (tree.addWithin fuel (rooted parts) isContainer).itemsAt more = tree.itemsAt more := by
  induction fuel generalizing parts isContainer with
  | zero => rfl
  | succ fuel ih =>
      cases parts with
      | nil => rfl
      | cons name above =>
          have properAbove := (proper_cons.mp proper).2
          have shorter : above.length < more.length := below
          rw [Tree.addWithin, rooted_ne_root proper, Bool.false_or, parentOf_rooted proper]
          split
          · rfl
          · rcases itemsAt_put _ proper properMore isContainer with kept | ⟨isParent, -⟩
            · exact kept.trans (ih properAbove true (Nat.le_of_lt shorter))
            · rw [isParent] at shorter
              exact absurd shorter (Nat.lt_irrefl _)

theorem put_sound (sound : tree.Sound) (proper : Proper (name :: parts)) (isContainer : Bool)
    (fresh : rooted (name :: parts) ∉ (tree.itemsAt parts).map PathItem.path) :
    (tree.put (rooted (name :: parts)) isContainer).Sound := by
  have isName := (proper_cons.mp proper).1
  constructor
  · intro more item properMore listed
    rcases itemsAt_put tree proper properMore isContainer with kept | ⟨rfl, added⟩
    · exact sound.lies properMore (kept ▸ listed)
    · rw [added, List.mem_append, List.mem_singleton] at listed
      rcases listed with older | rfl
      · exact sound.lies properMore older
      · exact ⟨isName, rfl, rfl⟩
  · intro more properMore
    rcases itemsAt_put tree proper properMore isContainer with kept | ⟨rfl, added⟩
    · exact kept ▸ sound.distinct properMore
    · rw [added, List.map_append]
      refine List.Nodup.append (sound.distinct properMore) (List.nodup_singleton _) ?_
      exact List.disjoint_singleton.mpr fresh

theorem addWithin_sound (fuel : Nat) (sound : tree.Sound) (proper : Proper parts) (isContainer : Bool) :
    (tree.addWithin fuel (rooted parts) isContainer).Sound := by
  induction fuel generalizing parts isContainer with
  | zero => exact sound
  | succ fuel ih =>
      cases parts with
      | nil => exact sound
      | cons name above =>
          have properAbove := (proper_cons.mp proper).2
          rw [Tree.addWithin, rooted_ne_root proper, Bool.false_or, parentOf_rooted proper]
          split
          · exact sound
          · rename_i absent
            refine put_sound (ih properAbove true) proper isContainer ?_
            -- Making the containers above the item has put nothing into its own container.
            rw [itemsAt_addWithin fuel properAbove true properAbove (Nat.le_refl _)]
            exact fun listed => absent ((holds_rooted proper).mpr listed)

theorem add_sound (sound : tree.Sound) (path : Text) : (tree.add path).Sound :=
  addWithin_sound _ sound (walk_proper proper_nil path) _

theorem ofPaths_sound (paths : List Text) : (Tree.ofPaths paths).Sound := by
  have root : Tree.Sound [("/", [])] := by
    have none : ∀ parts, Tree.itemsAt [("/", [])] parts = [] := by
      intro parts
      rw [Tree.itemsAt, Assoc.get?_cons]
      split <;> rfl
    constructor
    · intro parts item _ listed
      rw [none] at listed
      cases listed
    · intro parts _
      rw [none]
      exact List.nodup_nil
  rw [Tree.ofPaths]
  exact List.foldlRecOn paths Tree.add root fun tree sound path _ => add_sound sound path

end Items

/-! The provider. -/

section Provider

variable {paths : PathProvider} {entries : List Text} {currentLocation home : Text}
  {shares : Assoc (List Text)} {container : Text} {includeHidden : Bool} {item : PathItem}
  (isMemory : paths = provider entries currentLocation home shares)

include isMemory

theorem childItems_eq : (paths.childItems container includeHidden).getD [] =
    ((Tree.ofPaths entries).itemsAt (walk [] container)).filter
      fun item => includeHidden || !item.isHidden := by
  subst isMemory
  simp only [provider, Tree.itemsAt, normalize_eq]
  cases Assoc.get? (Tree.ofPaths entries) (rooted (walk [] container)) <;> rfl

theorem childItems_congr {other : Text} (same : walk [] container = walk [] other) :
    (paths.childItems container includeHidden).getD [] =
      (paths.childItems other includeHidden).getD [] := by
  rw [childItems_eq isMemory, childItems_eq isMemory, same]

theorem childItems_lie (listed : item ∈ (paths.childItems container includeHidden).getD []) :
    LiesIn (walk [] container) item := by
  rw [childItems_eq isMemory] at listed
  exact (ofPaths_sound entries).lies (walk_proper proper_nil container) (List.mem_filter.mp listed).1

theorem childItems_distinct :
    (((paths.childItems container includeHidden).getD []).map PathItem.path).Nodup := by
  rw [childItems_eq isMemory]
  exact ((ofPaths_sound entries).distinct (walk_proper proper_nil container)).sublist
    (List.filter_sublist.map _)

theorem childItems_all (listed : item ∈ (paths.childItems container includeHidden).getD []) :
    item ∈ (paths.childItems container true).getD [] := by
  rw [childItems_eq isMemory] at listed ⊢
  exact List.mem_filter.mpr ⟨(List.mem_filter.mp listed).1, rfl⟩

theorem isAbsolute_slash (start rest : Text) :
    paths.isAbsolute (start ++ "/" ++ rest) = paths.isAbsolute (start ++ "/") := by
  subst isMemory
  match start with
  | [] => rfl
  | [u] => simp [provider, Text.startsWith, Text.ofString, Text.unitsOfPoint, List.isPrefixOf]
  | u :: v :: more => simp [provider, Text.startsWith, Text.ofString, Text.unitsOfPoint, List.isPrefixOf]

theorem join_eq (parent child : Text) : paths.join parent child = rooted (walk (walk [] parent) child) := by
  subst isMemory
  simp only [provider, normalize_eq, walk_slash]

theorem walk_join (parent child : Text) : walk [] (paths.join parent child) = walk (walk [] parent) child := by
  rw [join_eq isMemory]
  exact walk_rooted (walk_proper (walk_proper proper_nil parent) child)

end Provider

end MemoryPaths

end TabCompletion
