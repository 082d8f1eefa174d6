import Mathlib.Tactic.SplitIfs
import TabCompletion.Proofs.Engine.Run
import TabCompletion.Proofs.Evaluation.Parts

/-!
What evaluation reads. Two sessions that give the same values to the variables written in an
expression, outside its script blocks, give the expression the same outcome, whatever else they
hold and whatever they would answer to queries.
-/

namespace TabCompletion.Evaluation

/-- The names that stand for constants and are never read. -/
def isConstantName (path : Text) : Bool :=
  ["true", "false", "null"].any fun name => Text.lower path == Text.ofString name

/-- The variable is written in the node, outside its script blocks, and is no constant. -/
def Mentions (n : Node) (path : Text) : Prop :=
  isConstantName path = false ∧ ∃ m, Reaches n m ∧ m.variablePath? = some path

/-- Both scopes read a variable, to the same value, or neither reads anything. -/
def SameAt (a b : Variables) (path : Text) : Prop := a.map (· path) = b.map (· path)

section Scopes

variable {a b : Variables}

theorem variableValue_congr {path : Text} (kind : NodeKind)
    (same : isConstantName path = false → SameAt a b path) :
    variableValue a kind path = variableValue b kind path := by
  simp only [variableValue]
  split_ifs with isTrue isFalse isNull
  · rfl
  · rfl
  · rfl
  · have isRead : isConstantName path = false := by simp_all [isConstantName]
    have equal := same isRead
    cases a <;> cases b <;> simp_all [SameAt]

/-- Only the rule of a variable looks at the scope. -/
theorem applyRule_congr (values : List Value) (form : Form)
    (same : ∀ path splatted, form = .variable path splatted →
      isConstantName path = false → SameAt a b path) :
    applyRule a values form = applyRule b values form := by
  cases form with
  | «variable» path splatted => exact variableValue_congr .variable (same path splatted rfl)
  | _ => rfl

theorem evaluateAll_congr {nodes : List Node}
    (same : ∀ n ∈ nodes, evaluate a n = evaluate b n) :
    evaluateAll a nodes = evaluateAll b nodes := by
  induction nodes with
  | nil => rfl
  | cons node rest ih =>
      rw [evaluateAll, evaluateAll, same node List.mem_cons_self,
        ih fun n later => same n (List.mem_cons_of_mem _ later)]

/-- Scopes that agree on what a node mentions give it the same value or the same failure. -/
theorem evaluate_congr (n : Node) (same : ∀ path, Mentions n path → SameAt a b path) :
    evaluate a n = evaluate b n := by
  -- The induction is on the size of the tree: what a part mentions, the node mentions.
  have ofParts : evaluateAll a (parts n) = evaluateAll b (parts n) := by
    apply evaluateAll_congr
    intro part isPart
    have smaller := sizeOf_part_lt isPart
    apply evaluate_congr part
    rintro path ⟨isRead, m, reached, isVariable⟩
    exact same path ⟨isRead, m, (reaches_part isPart).trans reached, isVariable⟩
  have ofRule : ∀ values, applyRule a values n.form = applyRule b values n.form := by
    intro values
    apply applyRule_congr
    intro path splatted isVariable isRead
    exact same path ⟨isRead, n, .self n, by simp [Node.variablePath?, isVariable]⟩
  rw [evaluate_step, evaluate_step, ofParts]
  simp only [ofRule]
termination_by sizeOf n

theorem attempt_congr (n : Node) (same : ∀ path, Mentions n path → SameAt a b path) :
    attempt a n = attempt b n := by
  rw [attempt, attempt, evaluate_congr n same]

end Scopes

/-! Sessions. -/

theorem sameAt_scope {a b : Option Session} {path : Text}
    (available : a.any (·.isAvailable) = b.any (·.isAvailable))
    (same : ∀ s ∈ a, ∀ t ∈ b, s.readVariable path = t.readVariable path) :
    SameAt (Session.scope? a) (Session.scope? b) path := by
  cases a with
  | none =>
      cases b with
      | none => rfl
      | some t => simp_all [SameAt, Session.scope?]
  | some s =>
      cases b with
      | none => simp_all [SameAt, Session.scope?]
      | some t =>
          have sameRead : s.readVariable path = t.readVariable path := same s rfl t rfl
          have sameAvailable : s.isAvailable = t.isAvailable := available
          simp only [SameAt, Session.scope?, sameAvailable]
          cases t.isAvailable <;> simp [sameRead]

/-- Evaluation as a computation of the engine, which records every query that is made. -/
def attempting (session : Option Session) (n : Node) : Engine Outcome :=
  return attempt (Session.scope? session) n

/-- The outcome of an evaluation depends on the availability of the session and on its values for
the variables that the expression mentions. No query is made: the sessions may answer them in any
way, and the state of the engine, with its record of queries, stays as it is. -/
theorem evaluation_reads_only_mentioned (n : Node) (a b : Option Session)
    (available : a.any (·.isAvailable) = b.any (·.isAvailable))
    (same : ∀ path, Mentions n path →
      ∀ s ∈ a, ∀ t ∈ b, s.readVariable path = t.readVariable path) :
    attempt (Session.scope? a) n = attempt (Session.scope? b) n ∧
      ∀ (world : World) (state : EngineState),
        Engine.run world state (attempting a n) = (.ok (attempt (Session.scope? a) n), state) ∧
        Engine.run world state (attempting b n) = (.ok (attempt (Session.scope? a) n), state) := by
  have outcomes : attempt (Session.scope? a) n = attempt (Session.scope? b) n :=
    attempt_congr n fun path mentions => sameAt_scope available (same path mentions)
  refine ⟨outcomes, fun world state => ⟨Engine.run_pure world state _, ?_⟩⟩
  rw [outcomes]
  exact Engine.run_pure world state _

/-- A list of a variable and of a block that writes another one, `$x, { $y }`. -/
def variableAndBlock : Node :=
  .new ⟨0, 10, "$x, { $y }"⟩ (.arrayLiteral
    [.new ⟨0, 2, "$x"⟩ (.variable "x" false),
     .new ⟨4, 10, "{ $y }"⟩ (.scriptBlockExpression (.new ⟨4, 10, "{ $y }"⟩ (.scriptBlock none []
       [.new ⟨6, 8, "$y"⟩ (.pipeline [.new ⟨6, 8, "$y"⟩
         (.commandExpression (.new ⟨6, 8, "$y"⟩ (.variable "y" false)) [])])])))])

theorem mentions_variableAndBlock {path : Text} (mentioned : Mentions variableAndBlock path) :
    path = "x" := by
  obtain ⟨_, m, reached, isVariable⟩ := mentioned
  cases reached with
  | self => simp [variableAndBlock, Node.new, Node.variablePath?, Node.form] at isVariable
  | enter enters deeper =>
      simp only [variableAndBlock, Node.new, entered, Node.form, Node.children, Form.children,
        List.mem_cons, List.not_mem_nil, or_false] at enters
      rcases enters with rfl | rfl
      all_goals
        cases deeper with
        | self => simp_all [Node.variablePath?, Node.form]
        | enter further _ => simp [entered, Node.form, Node.children, Form.children] at further

/-- A session in which every variable but `x` has a value of its own and every query breaks. -/
def brokenSession : Session :=
  { execute := fun _ => .broken "host" "gone"
    readVariable := fun path => if path = Text.ofString "x" then .null else .text path }

/-- A session in which no variable has a value. -/
def emptySession : Session :=
  { execute := fun _ => .items []
    readVariable := fun _ => .null }

theorem variableAndBlock_reads_x :
    brokenSession.readVariable "y" ≠ emptySession.readVariable "y" ∧
      attempt (Session.scope? brokenSession) variableAndBlock =
        attempt (Session.scope? emptySession) variableAndBlock := by
  have isOther : Text.ofString "y" ≠ Text.ofString "x" := by decide
  refine ⟨by simp [brokenSession, emptySession, isOther], ?_⟩
  refine (evaluation_reads_only_mentioned variableAndBlock brokenSession emptySession rfl ?_).1
  intro path mentioned s isFirst t isSecond
  cases isFirst
  cases isSecond
  rw [mentions_variableAndBlock mentioned]
  rfl

end TabCompletion.Evaluation
