import TabCompletion.Proofs.Syntax.Numbering

/-!
Typed trees. A form says of what kind each of its parts is; a tree is typed when all its forms keep
to that. Trees are plain data, so this is a condition and not part of their type. It can be
computed.
-/

namespace TabCompletion

/-- The kinds of statements. -/
def NodeKind.isStatement : NodeKind → Bool
  | .pipeline | .assignment | .functionDefinition | .typeDefinition | .ifStatement
  | .forEachStatement | .errorStatement => true
  | _ => false

/-- The kinds of what may stand before a parameter. -/
def NodeKind.isDecoration (kind : NodeKind) : Bool := kind == .attribute || kind == .typeConstraint

/-- The parts of a form have the kinds that belong there. Only what follows an error may be
anything. -/
def Form.isTyped : Form → Bool
  | .scriptBlock params usings statements =>
      params.all (·.kind == .paramBlock) && usings.all (·.kind == .usingStatement)
        && statements.all (·.kind.isStatement)
  | .paramBlock attributes parameters =>
      attributes.all (·.kind == .attribute) && parameters.all (·.kind == .parameter)
  | .parameter attributes name defaultValue =>
      attributes.all (·.kind.isDecoration) && name.kind == .variable
        && defaultValue.all (·.isExpression)
  | .statementBlock statements => statements.all (·.kind.isStatement)
  | .attribute _ positional named =>
      positional.all (·.isExpression) && named.all (·.kind == .namedAttributeArgument)
  | .namedAttributeArgument _ argument => argument.all (·.isExpression)
  | .typeConstraint _ => true
  | .usingStatement _ name => name.all (·.kind == .stringConstant)
  | .pipeline elements => elements.all fun e => e.kind == .command || e.kind == .commandExpression
  | .assignment left _ right => left.isExpression && right.kind.isStatement
  | .functionDefinition _ _ parameters body =>
      (parameters.getD []).all (·.kind == .parameter) && body.kind == .scriptBlock
  | .typeDefinition _ _ _ baseTypes members =>
      baseTypes.all (·.kind == .typeConstraint)
        && members.all fun m => m.kind == .propertyMember || m.kind == .functionMember
  | .propertyMember _ propertyType _ _ initialValue =>
      propertyType.all (·.kind == .typeConstraint) && initialValue.all (·.isExpression)
  | .functionMember _ parameters returnType _ _ _ body =>
      parameters.all (·.kind == .parameter) && returnType.all (·.kind == .typeConstraint)
        && body.kind == .scriptBlock
  | .ifStatement clauses elseClause =>
      (clauses.all fun (condition, body) =>
          condition.kind == .pipeline && body.kind == .statementBlock)
        && elseClause.all (·.kind == .statementBlock)
  | .forEachStatement loopVariable condition body =>
      loopVariable.kind == .variable && condition.kind == .pipeline && body.kind == .statementBlock
  | .errorStatement _ _ _ => true
  | .command elements _ redirections =>
      (elements.all fun e => e.isExpression || e.kind == .commandParameter)
        && redirections.all (·.kind == .fileRedirection)
  | .commandExpression expression redirections =>
      expression.isExpression && redirections.all (·.kind == .fileRedirection)
  | .commandParameter _ argument => argument.all (·.isExpression)
  | .fileRedirection location _ => location.isExpression
  | .constant _ | .stringConstant _ _ | .variable _ _ | .typeExpression _ => true
  | .expandableString _ _ nested => nested.all (·.isExpression)
  | .convert target child => target.kind == .typeConstraint && child.isExpression
  | .member target name _ => target.isExpression && name.isExpression
  | .invokeMember target name _ arguments =>
      target.isExpression && name.isExpression && arguments.all (·.isExpression)
  | .index target position => target.isExpression && position.isExpression
  | .unary _ child => child.isExpression
  | .binary _ left right _ => left.isExpression && right.isExpression
  | .arrayLiteral elements => elements.all (·.isExpression)
  | .arrayExpression body | .subExpression body => body.kind == .statementBlock
  | .hashtable pairs => pairs.all fun (key, value) => key.isExpression && value.kind.isStatement
  | .paren inner => inner.kind.isStatement
  | .scriptBlockExpression body => body.kind == .scriptBlock
  | .errorExpression _ => true

/-- Every form of the tree is typed. -/
def Node.Typed (n : Node) : Prop := ∀ m ∈ n.preorder, m.form.isTyped = true

theorem Node.typed_iff {n : Node} :
    n.Typed ↔ n.form.isTyped = true ∧ ∀ child ∈ n.children, child.Typed := by
  constructor
  · intro typed
    refine ⟨typed n n.mem_preorder_self, fun child isChild m below => typed m ?_⟩
    exact Node.mem_preorder_iff.mpr (Or.inr ⟨child, isChild, below⟩)
  · rintro ⟨typedForm, typedChildren⟩ m below
    rcases Node.mem_preorder_iff.mp below with rfl | ⟨child, isChild, deeper⟩
    · exact typedForm
    · exact typedChildren child isChild m deeper

theorem Node.Typed.self {n : Node} (typed : n.Typed) : n.form.isTyped = true :=
  (Node.typed_iff.mp typed).1

theorem Node.Typed.child {n child : Node} (typed : n.Typed) (isChild : child ∈ n.children) :
    child.Typed :=
  (Node.typed_iff.mp typed).2 child isChild

theorem Node.typed_mk {id : Nat} {extent : Extent} {form : Form} :
    (Node.mk id extent form).Typed ↔
      form.isTyped = true ∧ ∀ child ∈ form.children, child.Typed :=
  Node.typed_iff

end TabCompletion
