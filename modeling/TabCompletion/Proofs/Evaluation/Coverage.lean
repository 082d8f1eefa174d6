import Mathlib.Tactic.SplitIfs
import TabCompletion.Proofs.Evaluation.Parts
import TabCompletion.Proofs.Syntax.Typed

/-!
The evaluator covers what the classifier admits. An evaluation is refused as `not evaluable` only
at a node that it visits and that has no rule. In a typed tree a safe node has a rule, unless it is
a block of statements, and a block is never visited: its statements are.
-/

namespace TabCompletion.Evaluation

/-- A node and all nodes below it whose values its own value is made of. -/
inductive Visits : Node → Node → Prop where
  | self (n : Node) : Visits n n
  | part {n part m : Node} (isPart : part ∈ parts n) (visited : Visits part m) : Visits n m

/-- How a node without a rule is refused. -/
def notEvaluable (kind : NodeKind) : Failure := .refused kind "not evaluable"

/-! Rules refuse for reasons of their own. -/

section Rules

variable {α β : Type}

/-- The failures of the evaluator itself: a missing rule, and a count without end. -/
inductive Foreign : Failure → Prop
  | unruled (kind : NodeKind) : Foreign (notEvaluable kind)
  | endless : Foreign .endlessRange

/-- The computation fails for reasons of its own only. -/
def Ruled (x : Eval α) : Prop :=
  ∀ (made : Nat) (failure : Failure), Foreign failure → x made ≠ .error failure

theorem bind_error {x : Eval α} {f : α → Eval β} {made : Nat} {failure : Failure}
    (failed : (x >>= f) made = .error failure) :
    x made = .error failure ∨ ∃ value after, x made = .ok (value, after) ∧
      f value after = .error failure := by
  change Except.bind (x made) (fun (value, after) => f value after) = _ at failed
  cases first : x made with
  | error earlier =>
      rw [first, Except.bind, Except.error.injEq] at failed
      exact Or.inl (congrArg Except.error failed)
  | ok result =>
      rw [first] at failed
      exact Or.inr ⟨result.1, result.2, rfl, failed⟩

theorem bind_ok {x : Eval α} {f : α → Eval β} {made : Nat} {result : β × Nat}
    (done : (x >>= f) made = .ok result) :
    ∃ value after, x made = .ok (value, after) ∧ f value after = .ok result := by
  change Except.bind (x made) (fun (value, after) => f value after) = _ at done
  cases first : x made with
  | error earlier =>
      rw [first] at done
      cases done
  | ok middle =>
      rw [first] at done
      exact ⟨middle.1, middle.2, rfl, done⟩

theorem bind_of_ok {x : Eval α} {made after : Nat} {value : α} (done : x made = .ok (value, after))
    (f : α → Eval β) : (x >>= f) made = f value after := by
  change Except.bind (x made) (fun (value, after) => f value after) = _
  rw [done]
  rfl

theorem bind_of_error {x : Eval α} {made : Nat} {failure : Failure} (failed : x made = .error failure)
    (f : α → Eval β) : (x >>= f) made = .error failure := by
  change Except.bind (x made) (fun (value, after) => f value after) = _
  rw [failed]
  rfl

theorem ruled_pure (value : α) : Ruled (pure value : Eval α) := fun _ _ _ failed => by cases failed

theorem ruled_bind {x : Eval α} {f : α → Eval β} (first : Ruled x) (next : ∀ value, Ruled (f value)) :
    Ruled (x >>= f) := by
  intro made failure foreign failed
  rcases bind_error failed with early | ⟨value, after, _, late⟩
  · exact first made failure foreign early
  · exact next value after failure foreign late

theorem ruled_ite {condition : Prop} [Decidable condition] {x y : Eval α} (yes : Ruled x)
    (no : Ruled y) : Ruled (if condition then x else y) := by
  split
  · exact yes
  · exact no

theorem ruled_refuse (kind : NodeKind) {reason : Text}
    (other : reason ≠ Text.ofString "not evaluable") :
    Ruled (refuse kind reason : Eval α) := by
  intro made failure foreign failed
  cases failed
  cases foreign
  exact other rfl

theorem ruled_throw {failure : Failure} (own : ¬Foreign failure) : Ruled (throw failure : Eval α) := by
  intro made failure' foreign failed
  cases failed
  exact own foreign

theorem fresh_ruled : Ruled fresh := fun _ _ _ failed => by cases failed

theorem newArray_ruled (items : List Value) : Ruled (newArray items) :=
  ruled_bind fresh_ruled fun _ => ruled_pure _

theorem variableValue_ruled (scope : Variables) (kind : NodeKind) (path : Text) :
    Ruled (variableValue scope kind path) := by
  simp only [variableValue]
  split_ifs
  · exact ruled_pure _
  · exact ruled_pure _
  · exact ruled_pure _
  · cases scope with
    | none => exact ruled_refuse kind (by decide)
    | some read => exact ruled_pure _

theorem toCustomObject_ruled (value : Value) : Ruled (toCustomObject value) := by
  unfold toCustomObject
  split
  · exact ruled_bind fresh_ruled fun _ => ruled_pure _
  · exact ruled_pure _

/-- A reason that starts with a word of its own. -/
theorem ruled_refuse_append (kind : NodeKind) (front : CodeUnit) (rest : Text)
    (other : front ≠ ('n' : CodeUnit)) : Ruled (refuse kind (front :: rest) : Eval α) := by
  apply ruled_refuse
  intro same
  exact other (List.cons.inj same).1

theorem convertTo_ruled (kind : NodeKind) (typeName : Text) (value : Value) :
    Ruled (convertTo kind typeName value) := by
  simp only [convertTo]
  split_ifs
  · exact ruled_pure _
  · exact ruled_refuse_append kind 'c' _ (by decide)
  · exact ruled_pure _
  · exact ruled_pure _
  · exact ruled_pure _
  · split
    · exact ruled_pure _
    · exact newArray_ruled _
  · exact toCustomObject_ruled _
  · exact ruled_pure _

theorem memberOf_ruled (kind : NodeKind) (target : Value) (name : Node) (isStatic : Bool) :
    Ruled (memberOf kind target name isStatic) := by
  unfold memberOf
  split
  · exact ruled_refuse kind (by decide)
  · simp only
    split
    · exact ruled_refuse kind (by decide)
    · exact ruled_refuse kind (by decide)
    all_goals exact ruled_pure _

theorem valueAt_ruled (kind : NodeKind) (target index : Value) :
    Ruled (valueAt kind target index) := by
  unfold valueAt
  split
  · exact ruled_pure _
  · exact ruled_pure _
  · exact ruled_pure _
  · exact ruled_refuse kind (by decide)

theorem applyUnary_ruled (kind : NodeKind) (operator : Text) (value : Value) :
    Ruled (applyUnary kind operator value) := by
  simp only [applyUnary]
  split_ifs
  · exact ruled_pure _
  · exact ruled_pure _
  · exact ruled_pure _
  · exact newArray_ruled _
  · exact ruled_refuse_append kind 'o' _ (by decide)

theorem plus_ruled (left right : Value) : Ruled (plus left right) := by
  unfold plus
  split
  · exact newArray_ruled _
  · exact newArray_ruled _
  · exact ruled_pure _
  · exact ruled_pure _

theorem repeatText_ruled (t : Text) (count : Number) : Ruled (repeatText t count) := by
  unfold repeatText
  split
  · exact ruled_throw nofun
  · simp only
    split_ifs
    · exact ruled_throw nofun
    · exact ruled_pure _
  · exact ruled_pure _

theorem applyBinary_ruled (kind : NodeKind) {operator : Text}
    (other : Text.lower operator ≠ Text.ofString "..") (left right : Value) :
    Ruled (applyBinary kind operator left right) := by
  unfold applyBinary
  refine ruled_ite (plus_ruled left right) <| ruled_ite (ruled_pure _) <| ruled_ite ?_ <|
    ruled_ite (ruled_pure _) <| ruled_ite (ruled_pure _) <| ruled_ite (ruled_pure _) <|
    ruled_ite (ruled_pure _) <| ruled_ite (ruled_pure _) <| ruled_ite (ruled_pure _) <|
    ruled_ite (ruled_pure _) <| ruled_ite (ruled_pure _) <| ruled_ite (ruled_pure _) <|
    ruled_ite (ruled_pure _) <| ruled_ite ?_ ?_
  · split
    · exact repeatText_ruled _ _
    · exact ruled_pure _
  · split
    · exact ruled_pure _
    · exact ruled_pure _
  · rw [if_neg (mt eq_of_beq other)]
    exact ruled_refuse_append kind 'o' _ (by decide)

theorem applyBinary_range (kind : NodeKind) {operator : Text}
    (isRange : Text.lower operator = Text.ofString "..") (left right : Value) :
    applyBinary kind operator left right =
      match range? left.toNumber right.toNumber with
      | some values => newArray values
      | none => throw .endlessRange := by
  unfold applyBinary
  rw [isRange]
  rfl

/-- Whether a form is a range. -/
def isRange : Form → Bool
  | .binary operator _ _ _ => Text.lower operator == Text.ofString ".."
  | _ => false

/-- A rule, given a value for each part, fails for reasons of its own unless it is to count. -/
theorem applyRule_ruled (scope : Variables) (n : Node) {values : List Value}
    (ruled : hasRule n.form = true) (other : isRange n.form = false)
    (complete : values.length = (parts n).length) : Ruled (applyRule scope values n.form) := by
  obtain ⟨id, extent, form⟩ := n
  cases form with
  | constant value => cases value <;> exact ruled_pure _
  | «variable» path splatted => exact variableValue_ruled scope .variable path
  | typeExpression typeName | scriptBlockExpression body =>
      exact ruled_bind fresh_ruled fun _ => ruled_pure _
  | convert target child =>
      obtain ⟨value, rfl⟩ := List.length_eq_one_iff.mp complete
      exact convertTo_ruled _ _ value
  | member target name isStatic =>
      obtain ⟨value, rfl⟩ := List.length_eq_one_iff.mp complete
      exact memberOf_ruled _ value name isStatic
  | index target position =>
      obtain ⟨value, index, rfl⟩ := List.length_eq_two.mp complete
      exact valueAt_ruled _ value index
  | unary operator child =>
      obtain ⟨value, rfl⟩ := List.length_eq_one_iff.mp complete
      exact applyUnary_ruled _ operator value
  | binary operator left right _ =>
      obtain ⟨leftValue, rightValue, rfl⟩ := List.length_eq_two.mp complete
      exact applyBinary_ruled _ (ne_of_beq_false other) leftValue rightValue
  | arrayLiteral elements => exact newArray_ruled _
  | arrayExpression body => exact newArray_ruled _
  | subExpression body =>
      simp only [applyRule, Node.form, combine]
      split
      · exact ruled_pure _
      · exact newArray_ruled _
  | hashtable pairs => exact ruled_bind fresh_ruled fun _ => ruled_pure _
  | paren inner | commandExpression expression _ =>
      obtain ⟨value, rfl⟩ := List.length_eq_one_iff.mp complete
      exact ruled_pure _
  | pipeline elements =>
      cases elements with
      | nil => simp [hasRule, Node.form] at ruled
      | cons element rest =>
          obtain ⟨value, rfl⟩ := List.length_eq_one_iff.mp complete
          exact ruled_pure _
  | stringConstant _ _ | expandableString _ _ _ => exact ruled_pure _
  | _ => simp [hasRule, Node.form] at ruled

theorem applyRule_range (scope : Variables) {n : Node} (range : isRange n.form = true)
    (left right : Value) :
    applyRule scope [left, right] n.form =
      match range? left.toNumber right.toNumber with
      | some values => newArray values
      | none => throw .endlessRange := by
  obtain ⟨id, extent, form⟩ := n
  cases form with
  | binary operator a b _ => exact applyBinary_range .binary (eq_of_beq range) left right
  | _ => cases range

/-- A rule that fails for no reason of its own counts without end. -/
theorem applyRule_foreign (scope : Variables) (n : Node) {values : List Value} {made : Nat}
    {failure : Failure} (ruled : hasRule n.form = true) (complete : values.length = (parts n).length)
    (foreign : Foreign failure) (failed : applyRule scope values n.form made = .error failure) :
    failure = .endlessRange ∧ isRange n.form = true ∧
      ∃ left right, values = [left, right] ∧ range? left.toNumber right.toNumber = none := by
  cases range : isRange n.form with
  | false => exact absurd failed (applyRule_ruled scope n ruled range complete made failure foreign)
  | true =>
      have two : (parts n).length = 2 := by
        obtain ⟨id, extent, form⟩ := n
        cases form with
        | binary => rfl
        | _ => cases range
      obtain ⟨left, right, rfl⟩ := List.length_eq_two.mp (complete.trans two)
      rw [applyRule_range scope range] at failed
      cases counted : range? left.toNumber right.toNumber with
      | some items =>
          rw [counted] at failed
          exact absurd failed (newArray_ruled items made failure foreign)
      | none =>
          rw [counted] at failed
          cases failed
          exact ⟨rfl, rfl, left, right, rfl, counted⟩

end Rules

/-! Where a missing rule comes from. -/

section Evaluations

variable {scope : Variables}

theorem evaluateAll_error {nodes : List Node} {made : Nat} {failure : Failure}
    (failed : evaluateAll scope nodes made = .error failure) :
    ∃ before n rest values between, nodes = before ++ n :: rest ∧
      evaluateAll scope before made = .ok (values, between) ∧
      evaluate scope n between = .error failure := by
  induction nodes generalizing made with
  | nil => cases failed
  | cons node rest ih =>
      rcases bind_error failed with here | ⟨value, after, first, later⟩
      · exact ⟨[], node, rest, [], made, rfl, rfl, here⟩
      · rcases bind_error later with below | ⟨values, last, _, impossible⟩
        · obtain ⟨before, n, behind, values, between, rfl, evaluated, failedThere⟩ := ih below
          refine ⟨node :: before, n, behind, value :: values, between, rfl, ?_, failedThere⟩
          rw [evaluateAll, bind_of_ok first, bind_of_ok evaluated]
          rfl
        · cases impossible

theorem evaluateAll_length {nodes : List Node} {made after : Nat} {values : List Value}
    (done : evaluateAll scope nodes made = .ok (values, after)) : values.length = nodes.length := by
  induction nodes generalizing made after values with
  | nil => cases done; rfl
  | cons node rest ih =>
      obtain ⟨value, between, _, doneRest⟩ := bind_ok done
      obtain ⟨others, last, doneOthers, isResult⟩ := bind_ok doneRest
      cases isResult
      simp [ih doneOthers]

/-- An evaluation that is refused for want of a rule has come to a node without one. -/
theorem visits_unruled (n : Node) {made : Nat} {kind : NodeKind}
    (failed : evaluate scope n made = .error (notEvaluable kind)) :
    ∃ m, Visits n m ∧ hasRule m.form = false ∧ m.kind = kind := by
  -- The induction is on the size of the tree: the failure is the node's own, or that of a part.
  rw [evaluate_step] at failed
  split at failed
  next ruled =>
    rcases bind_error failed with early | ⟨values, after, evaluated, late⟩
    · obtain ⟨before, part, rest, _, between, split, -, failedThere⟩ := evaluateAll_error early
      have isPart : part ∈ parts n := by simp [split]
      have smaller := sizeOf_part_lt isPart
      obtain ⟨m, visited, unruled, isKind⟩ := visits_unruled part failedThere
      exact ⟨m, .part isPart visited, unruled, isKind⟩
    · have own := applyRule_foreign scope n ruled (evaluateAll_length evaluated) (.unruled kind) late
      cases own.1
  next unruled =>
    cases failed
    exact ⟨n, .self n, by simpa using unruled, rfl⟩
termination_by sizeOf n

end Evaluations

/-! What the classifier admits. -/

theorem Visits.reaches {n m : Node} (visited : Visits n m) : Reaches n m := by
  induction visited with
  | self n => exact .self n
  | part isPart _ ih => exact (reaches_part isPart).trans ih

/-- The kinds of nodes that stand where a value is wanted. -/
def standsForValue (kind : NodeKind) : Bool :=
  kind.isExpression || kind.isStatement || kind == .command || kind == .commandExpression

theorem standsForValue_part {n part : Node} (typed : n.Typed) (isPart : part ∈ parts n) :
    standsForValue part.kind = true := by
  have typedForm := typed.self
  have typedChildren : ∀ child ∈ n.children, child.Typed := fun child => typed.child
  obtain ⟨id, extent, form⟩ := n
  cases form with
  | arrayExpression body | subExpression body =>
      -- The parts are the statements of the block, and the block is typed as well.
      have typedBody := (typedChildren body (List.mem_singleton.mpr rfl)).self
      obtain ⟨_, _, content⟩ := body
      cases content with
      | statementBlock statements =>
          have isStatement := List.all_eq_true.mp typedBody part isPart
          simp [standsForValue, isStatement]
      | _ => cases typedForm
  | pipeline elements =>
      have isElement := List.all_eq_true.mp typedForm part (List.mem_of_mem_take isPart)
      simp only [Bool.or_eq_true] at isElement
      rcases isElement with isCommand | isExpression
      · simp [standsForValue, isCommand]
      · simp [standsForValue, isExpression]
  | hashtable pairs =>
      simp only [parts, Node.form, List.mem_flatMap, List.mem_cons, List.not_mem_nil, or_false]
        at isPart
      obtain ⟨pair, isPair, rfl | rfl⟩ := isPart
      all_goals
        have typedPair := List.all_eq_true.mp typedForm pair isPair
        simp only [Bool.and_eq_true, Node.isExpression] at typedPair
        simp [standsForValue, typedPair]
  | index left right | binary _ left right _ =>
      have typedSides : left.kind.isExpression = true ∧ right.kind.isExpression = true :=
        Bool.and_eq_true_iff.mp typedForm
      simp only [parts, Node.form, List.mem_cons, List.not_mem_nil, or_false] at isPart
      obtain rfl | rfl := isPart
      · simp [standsForValue, typedSides.1]
      · simp [standsForValue, typedSides.2]
  | _ => simp_all [parts, Node.form, Form.isTyped, Node.isExpression, standsForValue]

theorem typed_part {n part : Node} (typed : n.Typed) (isPart : part ∈ parts n) : part.Typed := by
  rcases mem_parts isPart with enters | ⟨body, enters, deeper⟩
  · exact typed.child (mem_children_of_entered enters)
  · exact (typed.child (mem_children_of_entered enters)).child (mem_children_of_entered deeper)

theorem not_block_of_standsForValue {kind : NodeKind} (stands : standsForValue kind = true) :
    kind ≠ .statementBlock := by
  rintro rfl
  cases stands

/-- Evaluation comes to nodes of typed trees only, and never to a block. -/
theorem Visits.typed {n m : Node} (visited : Visits n m) (typed : n.Typed)
    (other : n.kind ≠ .statementBlock) : m.form.isTyped = true ∧ m.kind ≠ .statementBlock := by
  induction visited with
  | self n => exact ⟨typed.self, other⟩
  | part isPart _ ih =>
      exact ih (typed_part typed isPart)
        (not_block_of_standsForValue (standsForValue_part typed isPart))

theorem hasRule_of_isSafe {n : Node} (typed : n.form.isTyped = true) (safe : isSafe n = true)
    (other : n.kind ≠ .statementBlock) : hasRule n.form = true := by
  have harmless := isHarmless_of_isSafe safe
  obtain ⟨id, extent, form⟩ := n
  cases form with
  | pipeline elements =>
      obtain ⟨element, rfl⟩ := List.length_eq_one_iff.mp (eq_of_beq harmless)
      rfl
  | arrayExpression body | subExpression body => exact typed
  | statementBlock statements => exact absurd rfl other
  | _ => simp_all [isHarmless, hasRule, Node.form]

/-- The evaluator has a rule for every node it comes to in what the classifier admits, and finds an
element in every pipeline; so no evaluation is refused for want of a rule. A block of statements
has no value by itself. -/
theorem evaluation_covers_safe_nodes (n : Node) (typed : n.Typed) (safe : isSafe n = true)
    (other : n.kind ≠ .statementBlock) :
    (∀ (scope : Variables) (made : Nat) (kind : NodeKind),
      evaluate scope n made ≠ .error (notEvaluable kind)) ∧
    (∀ m, Visits n m → hasRule m.form = true) ∧
    ∀ m elements, Visits n m → m.form = .pipeline elements → ∃ element, elements = [element] := by
  have ruled : ∀ m, Visits n m → hasRule m.form = true := by
    intro m visited
    obtain ⟨typedForm, notBlock⟩ := visited.typed typed other
    exact hasRule_of_isSafe typedForm (isSafe_of_reaches visited.reaches safe) notBlock
  refine ⟨?_, ruled, ?_⟩
  · intro scope made kind failed
    obtain ⟨m, visited, unruled, _⟩ := visits_unruled n failed
    rw [ruled m visited] at unruled
    cases unruled
  · intro m elements visited isPipeline
    have harmless := isHarmless_of_isSafe (isSafe_of_reaches visited.reaches safe)
    rw [isPipeline] at harmless
    exact List.length_eq_one_iff.mp (eq_of_beq harmless)

/-- The items of a variable and a number, `@($x; 1)`. -/
def collected : Node :=
  .new ⟨0, 8, "@($x; 1)"⟩ (.arrayExpression (.new ⟨2, 7, "$x; 1"⟩ (.statementBlock
    [.new ⟨2, 4, "$x"⟩ (.pipeline
      [.new ⟨2, 4, "$x"⟩ (.commandExpression (.new ⟨2, 4, "$x"⟩ (.variable "x" false)) [])]),
     .new ⟨6, 7, "1"⟩ (.pipeline
      [.new ⟨6, 7, "1"⟩ (.commandExpression (.new ⟨6, 7, "1"⟩ (.constant (.number (.ofNat 1)))) [])])])))

theorem collected_typed : collected.Typed := by
  simp [collected, Node.typed_mk, Node.new, Form.children, Form.isTyped, Node.form, Node.kind,
    Form.kind, NodeKind.isStatement, Node.isExpression, NodeKind.isExpression]

theorem collected_evaluable :
    collected.Typed ∧ isSafe collected = true ∧ collected.kind ≠ .statementBlock ∧
      (∀ (scope : Variables) (made : Nat) (kind : NodeKind),
        evaluate scope collected made ≠ .error (notEvaluable kind)) :=
  ⟨collected_typed, by decide, by decide,
    (evaluation_covers_safe_nodes collected collected_typed (by decide) (by decide)).1⟩

end TabCompletion.Evaluation
