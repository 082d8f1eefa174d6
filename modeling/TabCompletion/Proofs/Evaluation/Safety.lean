import TabCompletion.Evaluation.Evaluate
import TabCompletion.Syntax.Script

/-!
The safety classifier is exact. A node is safe when every node that its evaluation may come to is
harmless by itself; which nodes those are is said through `Node.children`, the traversal that
everything else uses, and not through the recursion of the classifier.
-/

namespace TabCompletion.Evaluation

/-- The children that evaluation enters: not the body of a script block, which is never run, and
not the type constraint of a conversion, which is only read. -/
def entered (n : Node) : List Node :=
  match n.form with
  | .scriptBlockExpression _ => []
  | .convert _ child => [child]
  | _ => n.children

/-- A node and all nodes below it that evaluation may come to. -/
inductive Reaches : Node → Node → Prop where
  | self (n : Node) : Reaches n n
  | enter {n child m : Node} (enters : child ∈ entered n) (reached : Reaches child m) : Reaches n m

/-- What a form may be by itself, whatever its parts are. -/
def isHarmless : Form → Bool
  | .constant _ | .stringConstant _ _ | .variable _ _ | .typeExpression _ | .scriptBlockExpression _
  | .expandableString _ _ _ | .member _ _ _ | .index _ _ | .binary _ _ _ _ | .convert _ _
  | .arrayLiteral _ | .arrayExpression _ | .subExpression _ | .statementBlock _ | .hashtable _
  | .paren _ => true
  | .unary operator _ => !changesOperand operator
  | .pipeline elements => elements.length == 1
  | .commandExpression _ redirections => redirections.isEmpty
  | _ => false

theorem allSafe_eq_all (nodes : List Node) : allSafe nodes = nodes.all isSafe := by
  induction nodes with
  | nil => rfl
  | cons node rest ih => simp [allSafe, ih]

theorem allPairsSafe_eq_all (pairs : List (Node × Node)) :
    allPairsSafe pairs = (pairs.flatMap fun (key, value) => [key, value]).all isSafe := by
  induction pairs with
  | nil => rfl
  | cons pair rest ih =>
      obtain ⟨key, value⟩ := pair
      simp [allPairsSafe, ih, Bool.and_assoc]

-- The forms with parts of a fixed number need the shape of those parts, so the forms are taken one
-- by one; every other form is refused on both sides.
theorem isSafe_step (n : Node) : isSafe n = (isHarmless n.form && (entered n).all isSafe) := by
  obtain ⟨id, extent, form⟩ := n
  cases form with
  | pipeline elements =>
      match elements with
      | [] => simp [isSafe, isHarmless, Node.form]
      | [element] => simp [isSafe, isHarmless, entered, Node.form, Node.children, Form.children]
      | first :: second :: rest => simp [isSafe, isHarmless, Node.form]
  | commandExpression expression redirections =>
      cases redirections with
      | nil => simp [isSafe, isHarmless, entered, Node.form, Node.children, Form.children]
      | cons first rest => simp [isSafe, isHarmless, Node.form]
  | _ =>
      simp [isSafe, isHarmless, entered, Node.form, Node.children, Form.children, allSafe_eq_all,
        allPairsSafe_eq_all]

theorem mem_children_of_entered {n child : Node} (enters : child ∈ entered n) :
    child ∈ n.children := by
  obtain ⟨id, extent, form⟩ := n
  cases form <;> simp_all [entered, Node.form, Node.children, Form.children]

/-- Safety goes down to every node that is reached. -/
theorem isSafe_of_reaches {n m : Node} (reached : Reaches n m) (safe : isSafe n = true) :
    isSafe m = true := by
  induction reached with
  | self n => exact safe
  | enter enters _ ih =>
      rw [isSafe_step, Bool.and_eq_true, List.all_eq_true] at safe
      exact ih (safe.2 _ enters)

theorem isHarmless_of_isSafe {n : Node} (safe : isSafe n = true) : isHarmless n.form = true := by
  rw [isSafe_step, Bool.and_eq_true] at safe
  exact safe.1

theorem isSafe_of_harmless (n : Node) (harmless : ∀ m, Reaches n m → isHarmless m.form = true) :
    isSafe n = true := by
  -- The induction is on the size of the tree: an entered child is a child, and so it is smaller.
  rw [isSafe_step, Bool.and_eq_true, List.all_eq_true]
  constructor
  · exact harmless n (.self n)
  · intro child enters
    have smaller := Node.sizeOf_child_lt (mem_children_of_entered enters)
    exact isSafe_of_harmless child fun m reached => harmless m (.enter enters reached)
termination_by sizeOf n

/-- The kinds of nodes that act or that are not understood. -/
def isActive : NodeKind → Bool
  | .command | .invokeMember | .assignment | .errorStatement | .errorExpression => true
  | _ => false

theorem not_isActive_of_isHarmless {form : Form} (harmless : isHarmless form = true) :
    isActive form.kind = false := by
  cases form <;> first | rfl | simp [isHarmless] at harmless

theorem attempt_refused {n : Node} (scope : Variables) (dangerous : isSafe n = false) :
    attempt scope n = .none (n.kind.text ++ " may have side effects") := by
  simp [attempt, dangerous]

/-- The classifier accepts a tree exactly when every node that evaluation may come to is harmless.
So a tree with an active node outside its script blocks is refused before anything is evaluated. -/
theorem isSafe_iff_reached_harmless (n : Node) :
    (isSafe n = true ↔ ∀ m, Reaches n m → isHarmless m.form = true) ∧
      ∀ (scope : Variables) (m : Node), Reaches n m → isActive m.kind = true →
        attempt scope n = .none (n.kind.text ++ " may have side effects") := by
  constructor
  · constructor
    · intro safe m reached
      exact isHarmless_of_isSafe (isSafe_of_reaches reached safe)
    · exact isSafe_of_harmless n
  · intro scope m reached active
    apply attempt_refused
    cases accepted : isSafe n with
    | false => rfl
    | true =>
        have safe := isSafe_of_reaches reached accepted
        have inactive := not_isActive_of_isHarmless (isHarmless_of_isSafe safe)
        rw [Node.kind, inactive] at active
        contradiction

/-- A command in brackets. -/
def bracketedCommand : Node :=
  .new ⟨0, 4, "(ls)"⟩ (.paren (.new ⟨1, 3, "ls"⟩ (.pipeline [.new ⟨1, 3, "ls"⟩ (.command [] none [])])))

theorem bracketed_command_refused :
    attempt none bracketedCommand = .none "ParenExpression may have side effects" := by
  have entersPipeline : .new ⟨1, 3, "ls"⟩ (.pipeline [.new ⟨1, 3, "ls"⟩ (.command [] none [])]) ∈
      entered bracketedCommand := List.mem_singleton.mpr rfl
  have entersCommand : .new ⟨1, 3, "ls"⟩ (.command [] none []) ∈ entered
      (.new ⟨1, 3, "ls"⟩ (.pipeline [.new ⟨1, 3, "ls"⟩ (.command [] none [])])) :=
    List.mem_singleton.mpr rfl
  exact (isSafe_iff_reached_harmless bracketedCommand).2 none _
    (.enter entersPipeline (.enter entersCommand (.self _))) rfl

end TabCompletion.Evaluation
