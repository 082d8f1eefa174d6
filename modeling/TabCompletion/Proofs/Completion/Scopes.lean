import TabCompletion.Completion.Variable
import TabCompletion.Proofs.Syntax.WellFormed

/-!
Where the variables of a script come from. Every variable that is collected at a cursor is traced to
the place that declares it and to the nodes around that place. The walk stays out of script blocks and
functions that do not hold the cursor and out of what starts behind it; three kinds of places escape
it, and they are named here.
-/

namespace TabCompletion.Completion

/-! Declarations. -/

/-- What gives a name to a variable. -/
inductive Construct where
  | assignment | parameter | loopVariable | argument
  deriving DecidableEq

/-- A place of a script that declares a variable. `around` holds the nodes below the root in which
the place lies, the outermost first. While `typed` is under the cursor, the name is not finished. -/
structure Declaration where
  construct : Construct
  site : Node
  typed : Option Node
  path : Text
  typeName : Option Text := none
  around : List Node := []

def Declaration.offered (cursor : Int) (d : Declaration) : List VariableCandidate :=
  if d.typed.any (·.extent.touches cursor) then [] else scriptVariable d.path d.typeName

def Declaration.inside (n : Node) (d : Declaration) : Declaration := { d with around := n :: d.around }

/-- The arguments of a command that name variables, each with the name. -/
def namings : List Node → List (Node × Text)
  | [] => []
  | element :: rest =>
      let here := match element.parameterParts? with
        | some (name, attached) =>
            if variableNamingParameters.any fun p => Text.ofString p == Text.lower name then
              match attached.or (rest.head?.filter (!·.isParameter)) with
              | some argument =>
                  match argument.literalText?.filter (!·.isEmpty) with
                  | some value =>
                      [(argument, if Text.startsWith value "+" then value.drop 1 else value)]
                  | none => []
              | none => []
            else []
        | none => []
      here ++ namings rest

/-- What a node itself declares. -/
def ownDeclarations (n : Node) : List Declaration :=
  match n.form with
  | .assignment left _ _ =>
      match left.variablePath?, left.conversion? with
      | some path, _ => [{ construct := .assignment, site := n, typed := some left, path }]
      | none, some (typeName, child) =>
          match child.variablePath? with
          | some path =>
              [{ construct := .assignment, site := n, typed := some child, path,
                 typeName := some typeName }]
          | none => []
      | none, none => []
  | .parameter attributes name _ =>
      [{ construct := .parameter, site := n, typed := some name, path := name.variablePath?.getD [],
         typeName := Node.constraintAmong? attributes }]
  | .forEachStatement loopVariable _ _ =>
      [{ construct := .loopVariable, site := loopVariable, typed := some loopVariable
         path := loopVariable.variablePath?.getD [] }]
  | .command elements _ _ =>
      (namings elements).map fun (argument, path) =>
        { construct := .argument, site := argument, typed := none, path }
  | _ => []

/-- Everything that a tree declares, whatever the cursor. -/
def declarations (n : Node) : List Declaration :=
  ownDeclarations n ++ n.children.attach.flatMap fun ⟨child, _⟩ =>
    (declarations child).map (Declaration.inside child)
termination_by sizeOf n
decreasing_by exact Node.sizeOf_child_lt ‹_›

theorem declarations_eq (n : Node) :
    declarations n = ownDeclarations n ++
      n.children.flatMap fun child => (declarations child).map (Declaration.inside child) := by
  rw [declarations]
  simp

/-- The walk enters a node from above. -/
def isEntered (cursor : Int) (n : Node) : Bool := decide (n.start < cursor) && !isClosed cursor n

/-- The declarations that the walk comes to. -/
def reached (cursor : Int) (n : Node) : List Declaration :=
  if n.start < cursor then (declarations n).filter (·.around.all (isEntered cursor)) else []

/-! The collected variables are those of the reached declarations. -/

theorem namedVariables_eq (elements : List Node) :
    namedVariables elements = (namings elements).map Prod.snd := by
  induction elements with
  | nil => rfl
  | cons element rest ih =>
      rw [namedVariables, namings, ih, List.map_append]
      congr 1
      cases element.parameterParts? with
      | none => rfl
      | some parts =>
          simp only
          split
          · cases parts.2.or (rest.head?.filter (!·.isParameter)) with
            | none => rfl
            | some argument =>
                simp only [Option.bind_some]
                cases argument.literalText?.filter (!·.isEmpty) <;> rfl
          · rfl

theorem ownVariables_eq (cursor : Int) (n : Node) :
    ownVariables cursor n = (ownDeclarations n).flatMap (·.offered cursor) := by
  obtain ⟨id, extent, form⟩ := n
  cases form with
  | assignment left operator right =>
      simp only [ownVariables, ownDeclarations, Node.form]
      cases left.variablePath? with
      | some path => simp [Declaration.offered]
      | none =>
          cases left.conversion? with
          | none => rfl
          | some conversion =>
              simp only
              cases conversion.2.variablePath? <;> simp [Declaration.offered]
  | parameter attributes name defaultValue =>
      simp [ownVariables, ownDeclarations, Node.form, Declaration.offered]
  | forEachStatement loopVariable condition body =>
      simp [ownVariables, ownDeclarations, Node.form, Declaration.offered]
  | command elements invocation redirections =>
      simp [ownVariables, ownDeclarations, Node.form, Declaration.offered, namedVariables_eq,
        List.flatMap_map]
  | _ => rfl

theorem variablesWithin_unfold (cursor : Int) (n : Node) :
    variablesWithin cursor n =
      if cursor ≤ n.start then [] else ownVariables cursor n ++ n.children.flatMap fun child =>
        if isClosed cursor child then [] else variablesWithin cursor child := by
  rw [variablesWithin]
  simp

/-- A node declares something itself without anything around it. Assignments and parameters are
nodes of their own. -/
theorem ownDeclarations_site {n : Node} {d : Declaration} (listed : d ∈ ownDeclarations n) :
    d.around = [] ∧ (d.construct = .assignment ∨ d.construct = .parameter → d.site = n) := by
  obtain ⟨id, extent, form⟩ := n
  cases form with
  | assignment left operator right =>
      simp only [ownDeclarations, Node.form] at listed
      split at listed
      · cases List.mem_singleton.mp listed
        exact ⟨rfl, fun _ => rfl⟩
      · split at listed
        · cases List.mem_singleton.mp listed
          exact ⟨rfl, fun _ => rfl⟩
        · cases listed
      · cases listed
  | parameter attributes name defaultValue =>
      cases List.mem_singleton.mp listed
      exact ⟨rfl, fun _ => rfl⟩
  | forEachStatement loopVariable condition body =>
      cases List.mem_singleton.mp listed
      exact ⟨rfl, by simp⟩
  | command elements invocation redirections =>
      obtain ⟨naming, -, rfl⟩ := List.mem_map.mp listed
      exact ⟨rfl, by simp⟩
  | _ => cases listed

theorem offered_inside (cursor : Int) (child : Node) (ds : List Declaration) :
    ((ds.map (Declaration.inside child)).filter (·.around.all (isEntered cursor))).flatMap (·.offered cursor) =
      if isEntered cursor child then
        (ds.filter (·.around.all (isEntered cursor))).flatMap (·.offered cursor)
      else [] := by
  rw [List.filter_map, List.flatMap_map]
  cases entered : isEntered cursor child with
  | true =>
      have same : ((fun d : Declaration => d.around.all (isEntered cursor)) ∘ (Declaration.inside child)) =
          fun d : Declaration => d.around.all (isEntered cursor) := by
        funext d
        simp [Declaration.inside, entered]
      rw [same, if_pos rfl]
      rfl
  | false =>
      have none : ((fun d : Declaration => d.around.all (isEntered cursor)) ∘ (Declaration.inside child)) =
          fun _ => false := by
        funext d
        simp [Declaration.inside, entered]
      simp [none]

theorem variablesWithin_eq (cursor : Int) (n : Node) :
    variablesWithin cursor n = (reached cursor n).flatMap (·.offered cursor) := by
  -- The induction is on the size of the tree.
  have ofChildren : ∀ child ∈ n.children,
      (if isClosed cursor child then [] else variablesWithin cursor child) =
        (((declarations child).map (Declaration.inside child)).filter
          (·.around.all (isEntered cursor))).flatMap (·.offered cursor) := by
    intro child isChild
    have smaller := Node.sizeOf_child_lt isChild
    rw [offered_inside, variablesWithin_eq cursor child, reached, isEntered]
    by_cases closed : isClosed cursor child = true
    · simp [closed]
    · by_cases starts : (child.start : Int) < cursor
      · simp [closed, starts]
      · simp [starts]
  have ownReached : (ownDeclarations n).filter (·.around.all (isEntered cursor)) =
      ownDeclarations n := by
    rw [List.filter_eq_self]
    intro d listed
    rw [(ownDeclarations_site listed).1]
    rfl
  rw [variablesWithin_unfold, reached, declarations_eq]
  by_cases starts : (n.start : Int) < cursor
  · rw [if_neg (by omega), if_pos starts, List.filter_append, List.flatMap_append, ownReached,
      ownVariables_eq, List.filter_flatMap, List.flatMap_assoc]
    congr 1
    rw [List.flatMap_def, List.flatMap_def, List.map_congr_left ofChildren]
  · rw [if_pos (by omega), if_neg starts, List.flatMap_nil]
termination_by sizeOf n

/-! The nodes around a declaration. -/

/-- A declaration of a tree, by the way from the root to it. -/
inductive Declared : Node → Declaration → Prop where
  | own {n : Node} {d : Declaration} : d ∈ ownDeclarations n → Declared n d
  | deeper {n child : Node} {d : Declaration} : child ∈ n.children → Declared child d →
      Declared n (d.inside child)

theorem declared_of_mem (n : Node) : ∀ d ∈ declarations n, Declared n d := by
  intro d listed
  rw [declarations_eq, List.mem_append, List.mem_flatMap] at listed
  rcases listed with own | ⟨child, isChild, below⟩
  · exact .own own
  · obtain ⟨inner, isInner, rfl⟩ := List.mem_map.mp below
    have smaller := Node.sizeOf_child_lt isChild
    exact .deeper isChild (declared_of_mem child inner isInner)
termination_by sizeOf n

/-- Variables that are set in a scope are not known outside of it. -/
def isScope (n : Node) : Bool :=
  n.kind == .scriptBlock || n.kind == .functionDefinition || n.kind == .functionMember

/-- The cursor is not behind the start of a declaration, or is not in a scope around it. -/
def Declaration.IsOut (cursor : Int) (d : Declaration) : Prop :=
  cursor ≤ d.site.start ∨ ∃ n ∈ d.around, isScope n = true ∧ n.extent.touches cursor = false

/-- The way leads into a method that does not hold the cursor, but not into its body. -/
def inSignature (cursor : Int) : List Node → Bool
  | [] => false
  | n :: further =>
      (n.kind == .functionMember && !n.extent.touches cursor
        && !further.head?.any (·.kind == .scriptBlock)) || inSignature cursor further

/-- The declarations that the walk takes although they are out of reach: what the parameters of a
method declare, a variable of a loop that the cursor stands before, and a name that is given in a
command behind the cursor. -/
def Declaration.Strays (cursor : Int) (d : Declaration) : Prop :=
  inSignature cursor d.around = true ∨
    (d.construct = .loopVariable ∨ d.construct = .argument) ∧ cursor ≤ d.site.start

/-- A method reaches over its body. -/
def SpansBody (n : Node) : Prop :=
  n.kind = .functionMember → ∀ body ∈ n.children, body.kind = .scriptBlock → n.covers body = true

section Around

variable {cursor : Int} {n : Node} {d : Declaration}

theorem mem_reached : d ∈ reached cursor n ↔
    (n.start : Int) < cursor ∧ d ∈ declarations n ∧ ∀ m ∈ d.around, isEntered cursor m = true := by
  rw [reached]
  split
  · rename_i starts
    simp [starts, List.mem_filter]
  · rename_i late
    simp [late]

/-- What strays is out of reach. -/
theorem strays_out (strays : d.Strays cursor) : d.IsOut cursor := by
  rcases strays with signature | late
  · right
    generalize d.around = around at signature
    induction around with
    | nil => cases signature
    | cons m further ih =>
        simp only [inSignature, Bool.or_eq_true, Bool.and_eq_true, beq_iff_eq, Bool.not_eq_true']
          at signature
        rcases signature with here | later
        · exact ⟨m, List.mem_cons_self, by simp [isScope, here.1.1], here.1.2⟩
        · obtain ⟨k, listed, holds⟩ := ih later
          exact ⟨k, List.mem_cons_of_mem m listed, holds⟩
  · exact Or.inl late.2

theorem entered_scope {scope : Node} (entered : isEntered cursor scope = true)
    (kind : scope.kind = .scriptBlock ∨ scope.kind = .functionDefinition) :
    scope.extent.touches cursor = true := by
  simp only [isEntered, isClosed, Bool.and_eq_true, Bool.not_eq_true', Bool.and_eq_false_iff] at entered
  rcases entered.2 with other | held
  · rcases kind with kind | kind <;> simp [kind] at other
  · simpa using held

theorem touches_of_covers {inner : Node} (covers : n.covers inner = true)
    (touched : inner.extent.touches cursor = true) : n.extent.touches cursor = true := by
  have bounds := Bool.and_eq_true_iff.mp covers
  have starts := of_decide_eq_true bounds.1
  have stops := of_decide_eq_true bounds.2
  simp only [Node.start, Node.stop] at starts stops
  rw [Extent.touches_iff] at touched ⊢
  omega

theorem declared_starts (declared : Declared n d) (starts : (n.start : Int) < cursor)
    (entered : ∀ m ∈ d.around, isEntered cursor m = true)
    (isNode : d.construct = .assignment ∨ d.construct = .parameter) :
    (d.site.start : Int) < cursor := by
  induction declared with
  | own listed =>
      rw [(ownDeclarations_site listed).2 isNode]
      exact starts
  | @deeper n child d isChild further ih =>
      have here := entered child List.mem_cons_self
      have startsBelow : (child.start : Int) < cursor :=
        of_decide_eq_true (Bool.and_eq_true_iff.mp here).1
      exact ih startsBelow (fun m listed => entered m (List.mem_cons_of_mem _ listed)) isNode

/-- A method that the walk has entered holds the cursor, unless the way leads into its signature. -/
theorem method_open {method : Node} (declared : Declared method d) (isMethod : method.kind = .functionMember)
    (entered : ∀ m ∈ d.around, isEntered cursor m = true) (spans : SpansBody method)
    (outside : inSignature cursor (method :: d.around) = false) :
    method.extent.touches cursor = true := by
  simp only [inSignature, isMethod, beq_self_eq_true, Bool.true_and, Bool.or_eq_false_iff,
    Bool.and_eq_false_iff, Bool.not_eq_false'] at outside
  rcases outside.1 with held | intoBody
  · exact held
  · cases declared with
    | own listed =>
        rw [(ownDeclarations_site listed).1] at intoBody
        cases intoBody
    | @deeper n body d isBody further =>
        have isBlock : body.kind = .scriptBlock := by simpa [Declaration.inside] using intoBody
        have touched := entered_scope (entered body List.mem_cons_self) (Or.inl isBlock)
        exact touches_of_covers (spans isMethod body isBody isBlock) touched

/-- Outside of signatures the walk stays in scopes that hold the cursor. -/
theorem declared_open (declared : Declared n d)
    (entered : ∀ m ∈ d.around, isEntered cursor m = true)
    (spans : ∀ m ∈ n.preorder, SpansBody m) (outside : inSignature cursor d.around = false) :
    ∀ m ∈ d.around, isScope m = true → m.extent.touches cursor = true := by
  induction declared with
  | own listed =>
      rw [(ownDeclarations_site listed).1]
      nofun
  | @deeper n child d isChild further ih =>
      have enteredBelow : ∀ m ∈ d.around, isEntered cursor m = true :=
        fun m listed => entered m (List.mem_cons_of_mem _ listed)
      have spansBelow : ∀ m ∈ child.preorder, SpansBody m := fun m below =>
        spans m (Node.mem_preorder_iff.mpr (Or.inr ⟨child, isChild, below⟩))
      have outsideBelow : inSignature cursor d.around = false :=
        (Bool.or_eq_false_iff.mp outside).2
      intro m listed scope
      rcases List.mem_cons.mp listed with rfl | further'
      · simp only [isScope, Bool.or_eq_true, beq_iff_eq] at scope
        rcases scope with kind | isMethod
        · exact entered_scope (entered m List.mem_cons_self) kind
        · exact method_open further isMethod enteredBelow (spansBelow m m.mem_preorder_self) outside
      · exact ih enteredBelow spansBelow outsideBelow m further' scope

/-- What the walk comes to although it is out of reach has strayed. -/
theorem strays_of_out (declared : Declared n d) (starts : (n.start : Int) < cursor)
    (entered : ∀ m ∈ d.around, isEntered cursor m = true) (spans : ∀ m ∈ n.preorder, SpansBody m)
    (isOut : d.IsOut cursor) : d.Strays cursor := by
  by_cases signature : inSignature cursor d.around = true
  · exact Or.inl signature
  · rcases isOut with early | ⟨m, isAround, scope, untouched⟩
    · right
      have notNode : ¬(d.construct = .assignment ∨ d.construct = .parameter) := by
        intro isNode
        have late := declared_starts declared starts entered isNode
        omega
      cases construct : d.construct with
      | assignment => exact (notNode (Or.inl construct)).elim
      | parameter => exact (notNode (Or.inr construct)).elim
      | loopVariable => exact ⟨Or.inl rfl, early⟩
      | argument => exact ⟨Or.inr rfl, early⟩
    · have outside : inSignature cursor d.around = false := Bool.eq_false_iff.mpr signature
      have touched := declared_open declared entered spans outside m isAround scope
      rw [untouched] at touched
      cases touched

end Around

/-- The variables collected at a cursor are those of the declarations that the walk comes to. Each of
them stands before the cursor and only in scopes that hold it, unless it strays. -/
theorem variables_of_open_scopes (root : Node) (cursor : Int)
    (spans : ∀ n ∈ root.preorder, SpansBody n) :
    variablesWithin cursor root = (reached cursor root).flatMap (·.offered cursor) ∧
      ∀ d ∈ reached cursor root, Declared root d ∧ (d.IsOut cursor ↔ d.Strays cursor) := by
  constructor
  · exact variablesWithin_eq cursor root
  · intro d isReached
    obtain ⟨starts, listed, entered⟩ := mem_reached.mp isReached
    have declared := declared_of_mem root d listed
    exact ⟨declared, strays_of_out declared starts entered spans, strays_out⟩

/-! Scripts with closed scopes. -/

section Scripts

instance (cursor : Int) : DecidablePred (Declaration.IsOut cursor) := fun d =>
  inferInstanceAs (Decidable (_ ∨ ∃ n ∈ d.around, _))

instance (cursor : Int) : DecidablePred (Declaration.Strays cursor) := fun _ =>
  inferInstanceAs (Decidable (_ ∨ _ ∧ _))

instance : DecidablePred SpansBody := fun n =>
  inferInstanceAs (Decidable (_ → ∀ body ∈ n.children, _))

/-- A script of some statements, each made from the nodes of its source. -/
def scriptOf (source : Text) (statements : (Nat → Nat → Form → Node) → List Node) : Node :=
  let spanning (start stop : Nat) (form : Form) : Node := .new (.ofSource source start stop) form
  spanning 0 source.length (.scriptBlock none [] (statements spanning))

/-- A function and a class with one method, each with a parameter. -/
def methodScript : Node :=
  scriptOf "function f($d) { } class C { M($b) { $ } }" fun node =>
    let declared (start stop : Nat) (name : Text) : Node :=
      node start stop (.parameter [] (node start stop (.variable name false)) none)
    [node 0 18 (.functionDefinition "f" false (some [declared 11 13 "d"])
      (node 15 18 (.scriptBlock none [] []))),
     node 19 42 (.typeDefinition "C" true false []
      [node 29 40 (.functionMember "M" [declared 31 33 "b"] none false false false
        (node 35 40 (.scriptBlock none [] [])))])]

def loopScript : Node :=
  scriptOf "foreach ($pq in $q) { }" fun node =>
    [node 0 23 (.forEachStatement (node 9 12 (.variable "pq" false))
      (node 16 18 (.pipeline [node 16 18 (.commandExpression
        (node 16 18 (.variable "q" false)) [])]))
      (node 20 23 (.statementBlock [])))]

def commandScript : Node :=
  scriptOf "Get-X $p -OutVariable pq" fun node =>
    [node 0 24 (.pipeline [node 0 24 (.command
      [node 0 5 (.stringConstant "Get-X" .bareWord), node 6 8 (.variable "p" false),
       node 9 21 (.commandParameter "OutVariable" none),
       node 22 24 (.stringConstant "pq" .bareWord)] none [])])]

/-- In the body of the method its parameter is known, and that of the function is not. -/
theorem method_body_knows_parameter :
    (variablesWithin 38 methodScript).map (·.name) = [Text.ofString "b"] ∧
      ∀ d ∈ reached 38 methodScript, ¬d.IsOut 38 := by
  have names : (variablesWithin 38 methodScript).map (·.name) = [Text.ofString "b"] := by
    decide +kernel
  have settled : ∀ d ∈ reached 38 methodScript, ¬d.Strays 38 := by decide +kernel
  refine ⟨names, fun d isReached => ?_⟩
  have known := (variables_of_open_scopes methodScript 38 (by decide +kernel)).2 d isReached
  rw [known.2]
  exact settled d isReached

/-- Behind the class the parameter of its method is offered, before the variable of a loop that
variable is, and before the end of a command the name that is given there, although everything that
these scripts declare is out of reach. -/
theorem closed_scopes_offer_variables :
    ((∀ d ∈ declarations methodScript, d.IsOut 42) ∧
      (variablesWithin 42 methodScript).map (·.name) = [Text.ofString "b"]) ∧
    ((∀ d ∈ declarations loopScript, d.IsOut 9) ∧
      (variablesWithin 9 loopScript).map (·.name) = [Text.ofString "pq"]) ∧
    ((∀ d ∈ declarations commandScript, d.IsOut 8) ∧
      (variablesWithin 8 commandScript).map (·.name) = [Text.ofString "pq"]) := by
  constructor
  · constructor <;> decide +kernel
  · constructor <;> constructor <;> decide +kernel

end Scripts

end TabCompletion.Completion
