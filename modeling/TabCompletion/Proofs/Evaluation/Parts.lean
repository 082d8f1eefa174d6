import TabCompletion.Proofs.Evaluation.Safety
import TabCompletion.Syntax.View

/-!
The value of a node is made of the values of its parts: they are computed in order, and then the
rule of the node is applied to them. A node without a rule is refused. One equation says so for
every form; what holds of all evaluations follows from it by going down the parts.
-/

namespace TabCompletion.Evaluation

/-! Parts and rules. -/

/-- The nodes whose values the value of a node is made of, in the order in which they are computed.
The name of a member and the target of a conversion are read but have no value, and a block is not
a part: its statements are. -/
def parts (n : Node) : List Node :=
  match n.form with
  | .expandableString _ _ nested => nested
  | .convert _ child | .unary _ child => [child]
  | .member target _ _ => [target]
  | .index target position => [target, position]
  | .binary _ left right _ => [left, right]
  | .arrayLiteral elements => elements
  | .arrayExpression body | .subExpression body => body.statements
  | .hashtable pairs => pairs.flatMap fun (key, value) => [key, value]
  | .paren inner => [inner]
  | .pipeline elements => elements.take 1
  | .commandExpression expression _ => [expression]
  | _ => []

/-- Whether the evaluator has a rule for a form. -/
def hasRule : Form → Bool
  | .constant _ | .stringConstant _ _ | .expandableString _ _ _ | .variable _ _ | .typeExpression _
  | .scriptBlockExpression _ | .convert _ _ | .member _ _ _ | .index _ _ | .unary _ _
  | .binary _ _ _ _ | .arrayLiteral _ | .hashtable _ | .paren _ | .commandExpression _ _ => true
  | .arrayExpression body | .subExpression body => body.kind == .statementBlock
  | .pipeline elements => !elements.isEmpty
  | _ => false

/-- A text in which the source text of each node is replaced by a value, in order. -/
def fillIn (text : Text) (nested : List Node) (values : List Value) : Text :=
  (nested.zip values).foldl
    (fun text (node, value) => replaceAll node.text value.format text) text

/-- What statements with the given values write. -/
def written (values : List Value) : List Value :=
  values.flatMap fun value =>
    match value with
    | .array _ items => items
    | _ => [value]

/-- Adds the entries of keys and values that take turns. -/
def addEntries : List Value → List (Value × Value) → List (Value × Value)
  | key :: value :: rest, entries => addEntries rest (setEntry key value entries)
  | _, entries => entries

/-- The value of a form from the values of its parts; a variable is not made of parts. -/
def combine (values : List Value) (form : Form) : Eval Value :=
  match form, values with
  | .constant .null, _ => return .null
  | .constant (.bool b), _ => return .bool b
  | .constant (.number n), _ => return .number n
  | .stringConstant value _, _ => return .text value
  | .expandableString value _ nested, values => return .text (fillIn value nested values)
  | .typeExpression typeName, _ => return .type (← fresh) typeName.fullName
  | .scriptBlockExpression body, _ => return .scriptBlock (← fresh) body
  | .convert target _, [value] =>
      convertTo .convert ((target.constraintType?.map (·.fullName)).getD []) value
  | .member _ name isStatic, [value] => memberOf .member value name isStatic
  | .index _ _, [value, index] => valueAt .index value index
  | .unary operator _, [value] => applyUnary .unary operator value
  | .binary operator _ _ _, [left, right] => applyBinary .binary operator left right
  | .arrayLiteral _, values => newArray values
  | .arrayExpression _, values => newArray (written values)
  | .subExpression _, values =>
      match written values with
      | [value] => return value
      | values => newArray values
  | .hashtable _, values => return .map (← fresh) (addEntries values [])
  | .paren _, [value] | .pipeline _, [value] | .commandExpression _ _, [value] => return value
  | form, _ => refuse form.kind "not evaluable"

/-- The rule of a form, applied to the values of its parts. -/
def applyRule (scope : Variables) (values : List Value) (form : Form) : Eval Value :=
  match form with
  | .variable path _ => variableValue scope .variable path
  | form => combine values form

/-! Lists of parts. -/

section Lists

variable (scope : Variables)

theorem fill_eq (text : Text) (nested : List Node) :
    fill scope text nested =
      (do return .text (fillIn text nested (← evaluateAll scope nested))) := by
  induction nested generalizing text with
  | nil => simp [fill, evaluateAll, fillIn]
  | cons node rest ih => simp [fill, evaluateAll, ih, fillIn]

theorem outputs_eq (statements : List Node) :
    outputs scope statements = (do return written (← evaluateAll scope statements)) := by
  induction statements with
  | nil => simp [outputs, evaluateAll, written]
  | cons statement rest ih =>
      simp only [outputs, evaluateAll, ih, bind_assoc, pure_bind]
      refine bind_congr fun value => bind_congr fun values => ?_
      cases value <;> rfl

theorem evaluatePairs_eq (pairs : List (Node × Node)) (entries : List (Value × Value)) :
    evaluatePairs scope pairs entries =
      (do return addEntries (← evaluateAll scope (pairs.flatMap fun (key, value) => [key, value]))
            entries) := by
  induction pairs generalizing entries with
  | nil => simp [evaluatePairs, evaluateAll, addEntries]
  | cons pair rest ih =>
      obtain ⟨key, value⟩ := pair
      simp [evaluatePairs, evaluateAll, ih, addEntries]

end Lists

/-- Evaluation in one step: the values of the parts, then the rule. -/
theorem evaluate_step (scope : Variables) (n : Node) :
    evaluate scope n =
      if hasRule n.form then
        evaluateAll scope (parts n) >>= fun values => applyRule scope values n.form
      else refuse n.kind "not evaluable" := by
  obtain ⟨id, extent, form⟩ := n
  cases form with
  | constant value =>
      cases value <;>
        simp [evaluate, parts, hasRule, Node.form, evaluateAll, applyRule, combine]
  | arrayExpression body =>
      obtain ⟨_, _, content⟩ := body
      cases content <;>
        simp [evaluate, parts, hasRule, Node.form, Node.kind, Form.kind, Node.statements, outputs_eq,
          applyRule, combine]
  | subExpression body =>
      obtain ⟨_, _, content⟩ := body
      cases content with
      | statementBlock statements =>
          simp only [evaluate, outputs_eq, bind_assoc, pure_bind]
          rfl
      | _ => simp [evaluate, hasRule, Node.form, Node.kind, Form.kind]
  | pipeline elements =>
      cases elements <;>
        simp [evaluate, parts, hasRule, Node.form, Node.kind, Form.kind, evaluateAll, applyRule,
          combine]
  | _ =>
      simp [evaluate, parts, hasRule, Node.form, Node.kind, Form.kind, evaluateAll, applyRule, combine,
        fill_eq, evaluatePairs_eq]

/-! Going down the parts. -/

/-- A part is a child, or a child of the block that is the body of the node. -/
theorem mem_parts {n part : Node} (isPart : part ∈ parts n) :
    part ∈ entered n ∨ ∃ body ∈ entered n, part ∈ entered body := by
  obtain ⟨id, extent, form⟩ := n
  cases form with
  | arrayExpression body | subExpression body =>
      refine Or.inr ⟨body, List.mem_singleton.mpr rfl, ?_⟩
      obtain ⟨_, _, content⟩ := body
      cases content <;>
        simp_all [parts, entered, Node.statements, Node.form, Node.children, Form.children]
  | pipeline elements => exact Or.inl (List.mem_of_mem_take isPart)
  | _ => simp_all [parts, entered, Node.form, Node.children, Form.children]

theorem reaches_part {n part : Node} (isPart : part ∈ parts n) : Reaches n part := by
  rcases mem_parts isPart with enters | ⟨body, enters, deeper⟩
  · exact .enter enters (.self part)
  · exact .enter enters (.enter deeper (.self part))

theorem sizeOf_part_lt {n part : Node} (isPart : part ∈ parts n) : sizeOf part < sizeOf n := by
  rcases mem_parts isPart with enters | ⟨body, enters, deeper⟩
  · exact Node.sizeOf_child_lt (mem_children_of_entered enters)
  · exact Nat.lt_trans (Node.sizeOf_child_lt (mem_children_of_entered deeper))
      (Node.sizeOf_child_lt (mem_children_of_entered enters))

theorem Reaches.trans {n m k : Node} (first : Reaches n m) (second : Reaches m k) :
    Reaches n k := by
  induction first with
  | self n => exact second
  | enter enters _ ih => exact .enter enters (ih second)

end TabCompletion.Evaluation
