import Mathlib.Algebra.GroupWithZero.Nat
import Mathlib.Logic.Relation
import TabCompletion.Proofs.Types.Resolution

/-!
The members of a type. A walk goes from a type to its base type and, for instance members, to its
interfaces, and comes to every type that can be reached so, to each once. The walk is bounded, but the
bound is never met. Of the members with one key those of the type are listed that the walk comes to
first.
-/

namespace TabCompletion

/-- The lower-case full name, by which types are told apart. -/
def TypeModel.identity (t : TypeModel) : Text := Text.lower t.fullName

namespace Registry

/-! The walk without a bound. -/

/-- A type names another as its base type or, for instance members, as an interface. -/
def Names (r : Registry) (isStatic : Bool) (t parent : TypeModel) : Prop :=
  ∃ name ∈ parents isStatic t, r.getType name = some parent

/-- The types that can be reached from the type of a name. -/
def Reaches (r : Registry) (isStatic : Bool) (name : Text) (t : TypeModel) : Prop :=
  ∃ first, r.getType name = some first ∧ Relation.ReflTransGen (r.Names isStatic) first t

/-- A finished walk over the pending names, depth first and away from the visited types: the types in
the order in which it comes to them. -/
inductive Walk (r : Registry) (isStatic : Bool) :
    List Text → List Text → List TypeModel → Prop where
  | done {visited} : Walk r isStatic [] visited []
  | unknown {name pending visited order} : r.getType name = none →
      Walk r isStatic pending visited order → Walk r isStatic (name :: pending) visited order
  | met {name pending visited t order} : r.getType name = some t → t.identity ∈ visited →
      Walk r isStatic pending visited order → Walk r isStatic (name :: pending) visited order
  | entered {name pending visited t order} : r.getType name = some t → t.identity ∉ visited →
      Walk r isStatic (parents isStatic t ++ pending) (t.identity :: visited) order →
      Walk r isStatic (name :: pending) visited (t :: order)

namespace Walk

variable {r : Registry} {isStatic : Bool} {pending visited : List Text} {order : List TypeModel}

/-- The walk comes to types that can be reached only. -/
theorem reaches (walk : r.Walk isStatic pending visited order) :
    ∀ t ∈ order, ∃ name ∈ pending, r.Reaches isStatic name t := by
  induction walk with
  | done => exact fun t listed => absurd listed List.not_mem_nil
  | unknown _ _ ih | met _ _ _ ih =>
      intro t listed
      obtain ⟨name, isPending, reached⟩ := ih t listed
      exact ⟨name, List.mem_cons_of_mem _ isPending, reached⟩
  | @entered name pending _ s _ found _ _ ih =>
      intro t listed
      rcases List.mem_cons.mp listed with rfl | later
      · exact ⟨name, List.mem_cons_self, t, found, .refl⟩
      · obtain ⟨parent, isNext, first, isFirst, way⟩ := ih t later
        rcases List.mem_append.mp isNext with isParent | isPending
        · exact ⟨name, List.mem_cons_self, s, found, .head ⟨parent, isParent, isFirst⟩ way⟩
        · exact ⟨parent, List.mem_cons_of_mem _ isPending, first, isFirst, way⟩

/-- It comes to each of them once. -/
theorem distinct (walk : r.Walk isStatic pending visited order) :
    (order.map (·.identity)).Nodup ∧ ∀ t ∈ order, t.identity ∉ visited := by
  induction walk with
  | done => exact ⟨List.nodup_nil, fun t listed => absurd listed List.not_mem_nil⟩
  | unknown _ _ ih | met _ _ _ ih => exact ih
  | @entered _ _ _ s _ _ fresh _ ih =>
      refine ⟨List.nodup_cons.mpr ⟨fun again => ?_, ih.1⟩, fun t listed => ?_⟩
      · obtain ⟨t, later, same⟩ := List.mem_map.mp again
        exact ih.2 t later (same ▸ List.mem_cons_self)
      · rcases List.mem_cons.mp listed with rfl | later
        · exact fresh
        · exact fun again => ih.2 t later (List.mem_cons_of_mem _ again)

/-- Whatever is pending or named by a type that it comes to is visited in the end. -/
theorem closed (walk : r.Walk isStatic pending visited order) :
    (∀ name ∈ pending, ∀ t, r.getType name = some t →
      t.identity ∈ visited ∨ ∃ s ∈ order, s.identity = t.identity) ∧
    ∀ s ∈ order, ∀ t, r.Names isStatic s t →
      t.identity ∈ visited ∨ ∃ s' ∈ order, s'.identity = t.identity := by
  induction walk with
  | done =>
      exact ⟨fun _ listed => absurd listed List.not_mem_nil,
        fun _ listed => absurd listed List.not_mem_nil⟩
  | unknown absent _ ih =>
      refine ⟨fun name isPending t found => ?_, ih.2⟩
      rcases List.mem_cons.mp isPending with rfl | later
      · rw [absent] at found
        cases found
      · exact ih.1 name later t found
  | met isMet isVisited _ ih =>
      refine ⟨fun name isPending t found => ?_, ih.2⟩
      rcases List.mem_cons.mp isPending with rfl | later
      · rw [isMet] at found
        cases found
        exact Or.inl isVisited
      · exact ih.1 name later t found
  | @entered name pending visited s order found _ _ ih =>
      -- What the rest of the walk counts as visited is visited or is the type itself.
      have lift : ∀ {t : TypeModel}, (t.identity ∈ s.identity :: visited ∨
          ∃ s' ∈ order, s'.identity = t.identity) →
          t.identity ∈ visited ∨ ∃ s' ∈ s :: order, s'.identity = t.identity := by
        rintro t (isVisited | ⟨s', listed, same⟩)
        · rcases List.mem_cons.mp isVisited with same | older
          · exact Or.inr ⟨s, List.mem_cons_self, same.symm⟩
          · exact Or.inl older
        · exact Or.inr ⟨s', List.mem_cons_of_mem _ listed, same⟩
      refine ⟨fun other isPending t isOther => ?_, fun u listed t named => ?_⟩
      · rcases List.mem_cons.mp isPending with rfl | later
        · rw [found] at isOther
          cases isOther
          exact Or.inr ⟨s, List.mem_cons_self, rfl⟩
        · exact lift (ih.1 other (List.mem_append_right _ later) t isOther)
      · rcases List.mem_cons.mp listed with rfl | later
        · obtain ⟨parent, isParent, isType⟩ := named
          exact lift (ih.1 parent (List.mem_append_left _ isParent) t isType)
        · exact lift (ih.2 u later t named)

end Walk

/-! The walk that is made, with a bound. -/

/-- The types that a bounded walk comes to, in its order. -/
def lineageWithin (r : Registry) (isStatic : Bool) : Nat → List Text → List Text → List TypeModel
  | 0, _, _ => []
  | _, [], _ => []
  | fuel + 1, name :: pending, visited =>
      match r.getType name with
      | none => lineageWithin r isStatic fuel pending visited
      | some t =>
          if visited.contains t.identity then lineageWithin r isStatic fuel pending visited
          else t :: lineageWithin r isStatic fuel (parents isStatic t ++ pending) (t.identity :: visited)

/-- The types whose members a type has, itself first. -/
def lineage (r : Registry) (typeName : Text) (isStatic : Bool) : List TypeModel :=
  r.lineageWithin isStatic (2 * r.mentions + 5) [typeName] []

/-- How many steps a name takes before a registered type is entered: an array is entered at once and
leads to the one base type of all arrays. -/
def stepsOf (name : Text) : Nat := if (TypeName.parse name).isArray then 2 else 1

/-- How many steps the names take at most that types refer to which were not visited. -/
def stepsAhead (visited : List Text) : List TypeModel → Nat
  | [] => 0
  | t :: rest =>
      (if t.identity ∈ visited then 0 else 2 * (parents false t).length) + stepsAhead visited rest

theorem stepsOf_pos (name : Text) : 1 ≤ stepsOf name := by
  rw [stepsOf]
  split <;> omega

theorem stepsOf_le (name : Text) : stepsOf name ≤ 2 := by
  rw [stepsOf]
  split <;> omega

theorem stepsOf_sum_le (names : List Text) : (names.map stepsOf).sum ≤ 2 * names.length := by
  induction names with
  | nil => exact Nat.le_refl _
  | cons name rest ih =>
      have first := stepsOf_le name
      rw [List.map_cons, List.sum_cons, List.length_cons]
      omega

theorem parents_length_le (isStatic : Bool) (t : TypeModel) :
    (parents isStatic t).length ≤ (parents false t).length := by
  cases isStatic with
  | false => exact Nat.le_refl _
  | true => simp [parents]

/-- What the types weigh together that were not visited. -/
def ahead (weight : TypeModel → Nat) (visited : List Text) : List TypeModel → Nat
  | [] => 0
  | t :: rest => (if t.identity ∈ visited then 0 else weight t) + ahead weight visited rest

section Ahead

variable (weight : TypeModel → Nat)

theorem ahead_le (visited : List Text) (identity : Text) (types : List TypeModel) :
    ahead weight (identity :: visited) types ≤ ahead weight visited types := by
  induction types with
  | nil => exact Nat.le_refl _
  | cons first rest ih =>
      rw [ahead, ahead]
      by_cases old : first.identity ∈ visited
      · rw [if_pos (List.mem_cons_of_mem _ old), if_pos old]
        omega
      · rw [if_neg old]
        split <;> omega

/-- A type that is visited takes its weight off what is ahead. -/
theorem ahead_visited {visited : List Text} {types : List TypeModel} {t : TypeModel}
    (registered : t ∈ types) (fresh : t.identity ∉ visited) :
    ahead weight (t.identity :: visited) types + weight t ≤ ahead weight visited types := by
  induction registered with
  | head rest =>
      have later := ahead_le weight visited t.identity rest
      rw [ahead, ahead, if_pos List.mem_cons_self, if_neg fresh]
      omega
  | tail first _ ih =>
      rw [ahead, ahead]
      by_cases old : first.identity ∈ visited
      · rw [if_pos (List.mem_cons_of_mem _ old), if_pos old]
        omega
      · rw [if_neg old]
        split <;> omega

end Ahead

theorem stepsAhead_eq (visited : List Text) (types : List TypeModel) :
    stepsAhead visited types = ahead (fun t => 2 * (parents false t).length) visited types := by
  induction types with
  | nil => rfl
  | cons first rest ih => rw [stepsAhead, ahead, ih]

theorem stepsAhead_le (visited : List Text) (identity : Text) (types : List TypeModel) :
    stepsAhead (identity :: visited) types ≤ stepsAhead visited types := by
  rw [stepsAhead_eq, stepsAhead_eq]
  exact ahead_le _ visited identity types

/-- A type that is entered takes what it refers to off what is ahead. -/
theorem stepsAhead_entered {visited : List Text} {types : List TypeModel} {t : TypeModel}
    (registered : t ∈ types) (fresh : t.identity ∉ visited) :
    stepsAhead (t.identity :: visited) types + 2 * (parents false t).length ≤
      stepsAhead visited types := by
  rw [stepsAhead_eq, stepsAhead_eq]
  exact ahead_visited (fun t => 2 * (parents false t).length) registered fresh

theorem stepsAhead_all (r : Registry) : stepsAhead [] r.allTypes = 2 * r.mentions := by
  rw [mentions]
  induction r.allTypes with
  | nil => rfl
  | cons first rest ih =>
      rw [stepsAhead, if_neg List.not_mem_nil, List.foldr_cons, ih]
      omega

section Filed

variable {r : Registry} (filed : r.Filed) {isStatic : Bool}

include filed

/-- A type that is entered leads to fewer steps than were ahead. -/
theorem steps_entered (isStatic : Bool) {name : Text} {visited : List Text} {t : TypeModel}
    (found : r.getType name = some t) (fresh : t.identity ∉ visited) :
    ((parents isStatic t).map stepsOf).sum + stepsAhead (t.identity :: visited) r.allTypes <
      stepsOf name + stepsAhead visited r.allTypes := by
  have some := stepsOf_pos name
  rcases getType_cases filed found with ⟨isArray, element, rfl⟩ | ⟨isFiled, -⟩
  · have fewer := stepsAhead_le visited (arrayOf element).identity r.allTypes
    have ofArray : ((parents isStatic (arrayOf element)).map stepsOf).sum = 1 := by
      cases isStatic <;> rfl
    rw [ofArray, stepsOf, if_pos isArray]
    omega
  · have fewer := stepsAhead_entered (Assoc.mem_values_of_get? isFiled) fresh
    have named := stepsOf_sum_le (parents isStatic t)
    have asInstance := parents_length_le isStatic t
    rw [allTypes]
    omega

/-- The bound of the walk is not met: every step takes one of the steps that were counted. -/
theorem walk_lineageWithin {fuel : Nat} {pending visited : List Text}
    (enough : (pending.map stepsOf).sum + stepsAhead visited r.allTypes ≤ fuel) :
    r.Walk isStatic pending visited (r.lineageWithin isStatic fuel pending visited) := by
  induction fuel generalizing pending visited with
  | zero =>
      cases pending with
      | nil => exact .done
      | cons name rest =>
          have some := stepsOf_pos name
          rw [List.map_cons, List.sum_cons] at enough
          omega
  | succ fuel ih =>
      cases pending with
      | nil => exact .done
      | cons name rest =>
          have some := stepsOf_pos name
          rw [List.map_cons, List.sum_cons] at enough
          rw [lineageWithin]
          cases found : r.getType name with
          | none => exact .unknown found (ih (by omega))
          | some t =>
              dsimp only
              split
              · rename_i isVisited
                exact .met found (List.contains_iff_mem.mp isVisited) (ih (by omega))
              · rename_i isFresh
                have fresh := mt List.contains_iff_mem.mpr isFresh
                have fewer := steps_entered filed isStatic found fresh
                refine .entered found fresh (ih ?_)
                rw [List.map_append, List.sum_append]
                omega

/-- The walk from a type comes to its end. -/
theorem walk_lineage (typeName : Text) (isStatic : Bool) :
    r.Walk isStatic [typeName] [] (r.lineage typeName isStatic) := by
  have first := stepsOf_le typeName
  refine walk_lineageWithin filed ?_
  rw [stepsAhead_all, List.map_singleton, List.sum_singleton]
  omega

omit filed in
theorem Reaches.named {typeName : Text} {t : TypeModel} (reached : r.Reaches isStatic typeName t) :
    ∃ name, r.getType name = some t := by
  obtain ⟨first, isFirst, way⟩ := reached
  rcases Relation.ReflTransGen.cases_tail way with rfl | ⟨-, -, name, -, found⟩
  · exact ⟨typeName, isFirst⟩
  · exact ⟨name, found⟩

omit filed in
theorem lineage_reaches {typeName : Text} {t : TypeModel}
    (walk : r.Walk isStatic [typeName] [] (r.lineage typeName isStatic))
    (listed : t ∈ r.lineage typeName isStatic) : r.Reaches isStatic typeName t := by
  obtain ⟨name, isPending, reached⟩ := walk.reaches t listed
  exact List.mem_singleton.mp isPending ▸ reached

/-- A listed type and one that can be reached are the same if their names are, or types of arrays. -/
theorem lineage_alike {typeName : Text} {s t : TypeModel}
    (listed : s ∈ r.lineage typeName isStatic) (reached : r.Reaches isStatic typeName t)
    (same : s.identity = t.identity) :
    s = t ∨ ∃ element element', s = arrayOf element ∧ t = arrayOf element' := by
  obtain ⟨name, found⟩ := (lineage_reaches (walk_lineage filed typeName isStatic) listed).named
  obtain ⟨name', found'⟩ := reached.named
  exact getType_alike filed found found' same

/-- Every type that can be reached is listed under its name. -/
theorem listed_of_reaches {typeName : Text} {t : TypeModel}
    (reached : r.Reaches isStatic typeName t) :
    ∃ s ∈ r.lineage typeName isStatic, s.identity = t.identity := by
  have closed := (walk_lineage filed typeName isStatic).closed
  obtain ⟨first, isFirst, way⟩ := reached
  induction way with
  | refl => exact (closed.1 _ List.mem_cons_self _ isFirst).resolve_left List.not_mem_nil
  | @tail u v way names ih =>
      obtain ⟨s, listed, same⟩ := ih
      -- The listed type of that name names the same types, also where both are types of arrays.
      have namesToo : r.Names isStatic s v := by
        rcases lineage_alike filed listed ⟨first, isFirst, way⟩ same with rfl | ⟨_, _, rfl, rfl⟩
        · exact names
        · exact names
      exact (closed.2 s listed v namesToo).resolve_left List.not_mem_nil

/-- A type that has members is listed if it can be reached. -/
theorem mem_lineage {typeName : Text} {t : TypeModel} (reached : r.Reaches isStatic typeName t)
    (some : t.members ≠ []) : t ∈ r.lineage typeName isStatic := by
  obtain ⟨s, listed, same⟩ := listed_of_reaches filed reached
  rcases lineage_alike filed listed reached same with rfl | ⟨-, element, -, rfl⟩
  · exact listed
  · exact absurd rfl some

end Filed

/-! Members and the types that declare them. -/

/-- The members that types add in this order whose keys were not taken before, each with its type. -/
def originsAmong (isStatic : Bool) (taken : List Text) : List TypeModel → List (Member × TypeModel)
  | [] => []
  | t :: later =>
      let fresh := t.members.filter fun m =>
        (m.isStatic == some true) == isStatic && !taken.contains (memberKey m)
      fresh.map (·, t) ++ originsAmong isStatic (taken ++ fresh.map memberKey) later

/-- The members of a type, each with the type that declares it. -/
def memberOrigins (r : Registry) (typeName : Text) (isStatic : Bool) : List (Member × TypeModel) :=
  originsAmong isStatic [] (r.lineage typeName isStatic)

theorem collect_members (r : Registry) (isStatic : Bool) (fuel : Nat) (pending : List Text)
    (found : Collected) :
    (r.collect isStatic fuel pending found).members = found.members ++
      (originsAmong isStatic found.seen
        (r.lineageWithin isStatic fuel pending found.visited)).map (·.1) := by
  induction fuel generalizing pending found with
  | zero => simp [collect, lineageWithin, originsAmong]
  | succ fuel ih =>
      cases pending with
      | nil => simp [collect, lineageWithin, originsAmong]
      | cons name rest =>
          rw [collect, lineageWithin]
          cases r.getType name with
          | none => exact ih rest found
          | some t =>
              dsimp only
              rw [TypeModel.identity]
              split
              · exact ih rest found
              · rw [ih, originsAmong]
                simp [Collected.add, Function.comp_def]

/-- The members of a type are those of the types that the walk comes to, without the hidden ones. -/
theorem getMembers_eq (r : Registry) (typeName : Text) (isStatic : Bool) :
    r.getMembers typeName isStatic = (r.memberOrigins typeName isStatic).map (·.1) := by
  rw [getMembers, collect_members]
  rfl

section Origins

variable {isStatic : Bool} {taken : List Text} {order : List TypeModel}

/-- A member comes from a listed type that declares it, and its key was not taken before. -/
theorem origin_declared {pair : Member × TypeModel}
    (listed : pair ∈ originsAmong isStatic taken order) :
    pair.2 ∈ order ∧ pair.1 ∈ pair.2.members ∧ (pair.1.isStatic == some true) = isStatic ∧
      memberKey pair.1 ∉ taken := by
  induction order generalizing taken with
  | nil => cases listed
  | cons t later ih =>
      rw [originsAmong] at listed
      rcases List.mem_append.mp listed with here | there
      · obtain ⟨m, isFresh, rfl⟩ := List.mem_map.mp here
        obtain ⟨declared, keeps⟩ := List.mem_filter.mp isFresh
        rw [Bool.and_eq_true, beq_iff_eq, Bool.not_eq_true', ← Bool.not_eq_true,
          List.contains_iff_mem] at keeps
        exact ⟨List.mem_cons_self, declared, keeps.1, keeps.2⟩
      · obtain ⟨isLater, declared, own, apart⟩ := ih there
        exact ⟨List.mem_cons_of_mem _ isLater, declared, own,
          fun old => apart (List.mem_append_left _ old)⟩

/-- After a type was listed, the keys of all its members are taken. -/
theorem key_taken {t : TypeModel} {m : Member} (declared : m ∈ t.members)
    (own : (m.isStatic == some true) = isStatic) :
    memberKey m ∈ taken ++ (t.members.filter fun m =>
      (m.isStatic == some true) == isStatic && !taken.contains (memberKey m)).map memberKey := by
  by_cases old : memberKey m ∈ taken
  · exact List.mem_append_left _ old
  · refine List.mem_append_right _ (List.mem_map_of_mem (List.mem_filter.mpr ⟨declared, ?_⟩))
    rw [beq_iff_eq.mpr own, List.contains_eq_mem, decide_eq_false old]
    rfl

/-- Every key that a listed type declares was taken before or is listed with a member. -/
theorem exists_origin {t : TypeModel} {m : Member} (listed : t ∈ order) (declared : m ∈ t.members)
    (own : (m.isStatic == some true) = isStatic) (fresh : memberKey m ∉ taken) :
    ∃ pair ∈ originsAmong isStatic taken order, memberKey pair.1 = memberKey m := by
  induction order generalizing taken with
  | nil => cases listed
  | cons first later ih =>
      rw [originsAmong]
      by_cases here : memberKey m ∈ taken ++ (first.members.filter fun m =>
          (m.isStatic == some true) == isStatic && !taken.contains (memberKey m)).map memberKey
      · have isFresh := (List.mem_append.mp here).resolve_left fresh
        obtain ⟨other, isOther, same⟩ := List.mem_map.mp isFresh
        exact ⟨(other, first), List.mem_append_left _ (List.mem_map_of_mem isOther), same⟩
      · have isLater : t ∈ later := by
          rcases List.mem_cons.mp listed with rfl | isLater
          · exact absurd (key_taken declared own) here
          · exact isLater
        obtain ⟨pair, there, same⟩ := ih isLater here
        exact ⟨pair, List.mem_append_right _ there, same⟩

/-- Members with one key come from one type. -/
theorem origin_unique {pair other : Member × TypeModel}
    (listed : pair ∈ originsAmong isStatic taken order)
    (isOther : other ∈ originsAmong isStatic taken order)
    (same : memberKey pair.1 = memberKey other.1) : pair.2 = other.2 := by
  induction order generalizing taken with
  | nil => cases listed
  | cons t later ih =>
      rw [originsAmong] at listed isOther
      -- A key of this type is taken for all later ones.
      have apart : ∀ {m : Member} {pair : Member × TypeModel}, m ∈ (t.members.filter fun m =>
          (m.isStatic == some true) == isStatic && !taken.contains (memberKey m)) →
          pair ∈ originsAmong isStatic (taken ++ (t.members.filter fun m =>
            (m.isStatic == some true) == isStatic && !taken.contains (memberKey m)).map memberKey)
            later → memberKey m ≠ memberKey pair.1 := by
        intro m pair isFresh there same
        exact (origin_declared there).2.2.2
          (same ▸ List.mem_append_right _ (List.mem_map_of_mem isFresh))
      rcases List.mem_append.mp listed with here | there <;>
        rcases List.mem_append.mp isOther with here' | there'
      · obtain ⟨m, -, rfl⟩ := List.mem_map.mp here
        obtain ⟨m', -, rfl⟩ := List.mem_map.mp here'
        rfl
      · obtain ⟨m, isFresh, rfl⟩ := List.mem_map.mp here
        exact absurd same (apart isFresh there')
      · obtain ⟨m, isFresh, rfl⟩ := List.mem_map.mp here'
        exact absurd same.symm (apart isFresh there)
      · exact ih there there'

end Origins

/-! The closure of a type. -/

/-- These are the members of a type with the types that declare them: a member is declared on a type
that can be reached, no key of such a type is missing, and members with one key have one type. -/
structure Closure (r : Registry) (typeName : Text) (isStatic : Bool)
    (listed : List (Member × TypeModel)) : Prop where
  declared : ∀ pair ∈ listed, r.Reaches isStatic typeName pair.2 ∧ pair.1 ∈ pair.2.members ∧
    (pair.1.isStatic == some true) = isStatic
  covered : ∀ t, r.Reaches isStatic typeName t → ∀ m ∈ t.members,
    (m.isStatic == some true) = isStatic → ∃ pair ∈ listed, memberKey pair.1 = memberKey m
  unique : ∀ pair ∈ listed, ∀ other ∈ listed, memberKey pair.1 = memberKey other.1 →
    pair.2 = other.2

/-- The walk from a type ends, and what it collects is the closure of the type, whatever graph the
registered types form. -/
theorem members_are_the_closure (models : List TypeModel) (typeName : Text) (isStatic : Bool) :
    (Catalog.added models).Walk isStatic [typeName] []
        ((Catalog.added models).lineage typeName isStatic) ∧
      (Catalog.added models).getMembers typeName isStatic =
        ((Catalog.added models).memberOrigins typeName isStatic).map (·.1) ∧
      (Catalog.added models).Closure typeName isStatic
        ((Catalog.added models).memberOrigins typeName isStatic) := by
  have filed := filed_added models
  have walk := walk_lineage filed typeName isStatic
  refine ⟨walk, getMembers_eq _ _ _, ?_, ?_, ?_⟩
  · intro pair listed
    obtain ⟨isListed, declared, own, -⟩ := origin_declared listed
    exact ⟨lineage_reaches walk isListed, declared, own⟩
  · intro t reached m declared own
    have listed := mem_lineage filed reached (List.ne_nil_of_mem declared)
    exact exists_origin listed declared own List.not_mem_nil
  · exact fun pair listed other isOther same => origin_unique listed isOther same

end Registry

end TabCompletion
