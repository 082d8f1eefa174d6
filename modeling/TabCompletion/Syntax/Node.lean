import TabCompletion.Number.Basic
import TabCompletion.Syntax.Extent

/-!
Syntax trees of shell scripts. A node is its form and its extent; the number of a node is its place
in the pre-order listing of the tree and serves as its identity. `children` lists the direct
children in source order, and everything that walks a tree walks it through `children`.
-/

namespace TabCompletion

inductive WrittenType where
  | simple (fullName : Text) (extent : Extent)
  | generic (fullName : Text) (extent : Extent) (definition : WrittenType) (arguments : List WrittenType)
  | array (fullName : Text) (extent : Extent) (element : WrittenType)

def WrittenType.fullName : WrittenType → Text
  | .simple name _ | .generic name _ _ _ | .array name _ _ => name

def WrittenType.extent : WrittenType → Extent
  | .simple _ e | .generic _ e _ _ | .array _ e _ => e

inductive UsingKind where
  | nameSpace | module | assembly
  deriving DecidableEq

inductive InvocationOperator where
  | ampersand | dot
  deriving DecidableEq

inductive StringStyle where
  | bareWord | singleQuoted | doubleQuoted | singleQuotedHere | doubleQuotedHere
  deriving DecidableEq

inductive Constant where
  | null
  | bool (value : Bool)
  | number (value : Number)

structure StatementFlag (α : Type) where
  name : Text
  extent : Extent
  argument : Option α

mutual

inductive Node where
  | mk (id : Nat) (extent : Extent) (form : Form)

inductive Form where
  | scriptBlock (paramBlock : Option Node) (usings statements : List Node)
  | paramBlock (attributes parameters : List Node)
  | parameter (attributes : List Node) (name : Node) (defaultValue : Option Node)
  | statementBlock (statements : List Node)
  | attribute (typeName : WrittenType) (positional named : List Node)
  | namedAttributeArgument (name : Text) (argument : Option Node)
  | typeConstraint (typeName : WrittenType)
  | usingStatement (kind : UsingKind) (name : Option Node)
  | pipeline (elements : List Node)
  | assignment (left : Node) (operator : Text) (right : Node)
  | functionDefinition (name : Text) (isFilter : Bool) (parameters : Option (List Node)) (body : Node)
  | typeDefinition (name : Text) (isClass isEnum : Bool) (baseTypes members : List Node)
  | propertyMember (name : Text) (propertyType : Option Node) (isStatic isHidden : Bool)
      (initialValue : Option Node)
  | functionMember (name : Text) (parameters : List Node) (returnType : Option Node)
      (isStatic isHidden isConstructor : Bool) (body : Node)
  | ifStatement (clauses : List (Node × Node)) (elseClause : Option Node)
  | forEachStatement (loopVariable condition body : Node)
  | errorStatement (keyword : Option Text) (flags : List (StatementFlag Node)) (nested : List Node)
  | command (elements : List Node) (invocation : Option InvocationOperator) (redirections : List Node)
  | commandExpression (expression : Node) (redirections : List Node)
  | commandParameter (name : Text) (argument : Option Node)
  | fileRedirection (location : Node) (appends : Bool)
  | constant (value : Constant)
  | stringConstant (value : Text) (style : StringStyle)
  | expandableString (value : Text) (style : StringStyle) (nested : List Node)
  | variable (path : Text) (splatted : Bool)
  | typeExpression (typeName : WrittenType)
  | convert (target child : Node)
  | member (target name : Node) (isStatic : Bool)
  | invokeMember (target name : Node) (isStatic : Bool) (arguments : List Node)
  | index (target index : Node)
  | unary (operator : Text) (child : Node)
  | binary (operator : Text) (left right : Node) (operatorExtent : Extent)
  | arrayLiteral (elements : List Node)
  | arrayExpression (body : Node)
  | hashtable (pairs : List (Node × Node))
  | paren (pipeline : Node)
  | subExpression (body : Node)
  | scriptBlockExpression (body : Node)
  | errorExpression (nested : List Node)

end

inductive NodeKind where
  | scriptBlock | paramBlock | parameter | statementBlock | attribute | namedAttributeArgument
  | typeConstraint | usingStatement | pipeline | assignment | functionDefinition | typeDefinition
  | propertyMember | functionMember | ifStatement | forEachStatement | errorStatement | command
  | commandExpression | commandParameter | fileRedirection | constant | stringConstant
  | expandableString | variable | typeExpression | convert | member | invokeMember | index | unary
  | binary | arrayLiteral | arrayExpression | hashtable | paren | subExpression
  | scriptBlockExpression | errorExpression
  deriving DecidableEq

def NodeKind.names : List (NodeKind × String) := [
  (.scriptBlock, "ScriptBlock"), (.paramBlock, "ParamBlock"), (.parameter, "Parameter"),
  (.statementBlock, "StatementBlock"), (.attribute, "Attribute"),
  (.namedAttributeArgument, "NamedAttributeArgument"), (.typeConstraint, "TypeConstraint"),
  (.usingStatement, "UsingStatement"), (.pipeline, "Pipeline"), (.assignment, "AssignmentStatement"),
  (.functionDefinition, "FunctionDefinition"), (.typeDefinition, "TypeDefinition"),
  (.propertyMember, "PropertyMember"), (.functionMember, "FunctionMember"),
  (.ifStatement, "IfStatement"), (.forEachStatement, "ForEachStatement"),
  (.errorStatement, "ErrorStatement"), (.command, "Command"),
  (.commandExpression, "CommandExpression"), (.commandParameter, "CommandParameter"),
  (.fileRedirection, "FileRedirection"), (.constant, "ConstantExpression"),
  (.stringConstant, "StringConstantExpression"), (.expandableString, "ExpandableStringExpression"),
  (.variable, "VariableExpression"), (.typeExpression, "TypeExpression"),
  (.convert, "ConvertExpression"), (.member, "MemberExpression"),
  (.invokeMember, "InvokeMemberExpression"), (.index, "IndexExpression"),
  (.unary, "UnaryExpression"), (.binary, "BinaryExpression"), (.arrayLiteral, "ArrayLiteral"),
  (.arrayExpression, "ArrayExpression"), (.hashtable, "Hashtable"), (.paren, "ParenExpression"),
  (.subExpression, "SubExpression"), (.scriptBlockExpression, "ScriptBlockExpression"),
  (.errorExpression, "ErrorExpression")]

def NodeKind.ofText? (name : Text) : Option NodeKind :=
  (NodeKind.names.find? fun entry => Text.ofString entry.2 == name).map (·.1)

def NodeKind.text (kind : NodeKind) : Text := (NodeKind.names.lookup kind).getD ""

def Form.kind : Form → NodeKind
  | .scriptBlock .. => .scriptBlock
  | .paramBlock .. => .paramBlock
  | .parameter .. => .parameter
  | .statementBlock .. => .statementBlock
  | .attribute .. => .attribute
  | .namedAttributeArgument .. => .namedAttributeArgument
  | .typeConstraint .. => .typeConstraint
  | .usingStatement .. => .usingStatement
  | .pipeline .. => .pipeline
  | .assignment .. => .assignment
  | .functionDefinition .. => .functionDefinition
  | .typeDefinition .. => .typeDefinition
  | .propertyMember .. => .propertyMember
  | .functionMember .. => .functionMember
  | .ifStatement .. => .ifStatement
  | .forEachStatement .. => .forEachStatement
  | .errorStatement .. => .errorStatement
  | .command .. => .command
  | .commandExpression .. => .commandExpression
  | .commandParameter .. => .commandParameter
  | .fileRedirection .. => .fileRedirection
  | .constant .. => .constant
  | .stringConstant .. => .stringConstant
  | .expandableString .. => .expandableString
  | .variable .. => .variable
  | .typeExpression .. => .typeExpression
  | .convert .. => .convert
  | .member .. => .member
  | .invokeMember .. => .invokeMember
  | .index .. => .index
  | .unary .. => .unary
  | .binary .. => .binary
  | .arrayLiteral .. => .arrayLiteral
  | .arrayExpression .. => .arrayExpression
  | .hashtable .. => .hashtable
  | .paren .. => .paren
  | .subExpression .. => .subExpression
  | .scriptBlockExpression .. => .scriptBlockExpression
  | .errorExpression .. => .errorExpression

def NodeKind.isExpression : NodeKind → Bool
  | .constant | .stringConstant | .expandableString | .variable | .typeExpression | .convert
  | .member | .invokeMember | .index | .unary | .binary | .arrayLiteral | .arrayExpression
  | .hashtable | .paren | .subExpression | .scriptBlockExpression | .errorExpression => true
  | _ => false

def Form.children : Form → List Node
  | .scriptBlock params usings statements => params.toList ++ usings ++ statements
  | .paramBlock attributes parameters => attributes ++ parameters
  | .parameter attributes name defaultValue => attributes ++ name :: defaultValue.toList
  | .statementBlock statements => statements
  | .attribute _ positional named => positional ++ named
  | .namedAttributeArgument _ argument => argument.toList
  | .typeConstraint _ => []
  | .usingStatement _ name => name.toList
  | .pipeline elements => elements
  | .assignment left _ right => [left, right]
  | .functionDefinition _ _ parameters body => parameters.getD [] ++ [body]
  | .typeDefinition _ _ _ baseTypes members => baseTypes ++ members
  | .propertyMember _ propertyType _ _ initialValue => propertyType.toList ++ initialValue.toList
  | .functionMember _ parameters returnType _ _ _ body => returnType.toList ++ parameters ++ [body]
  | .ifStatement clauses elseClause =>
      (clauses.flatMap fun (condition, body) => [condition, body]) ++ elseClause.toList
  | .forEachStatement loopVariable condition body => [loopVariable, condition, body]
  | .errorStatement _ flags nested => flags.filterMap (·.argument) ++ nested
  | .command elements _ redirections => elements ++ redirections
  | .commandExpression expression redirections => expression :: redirections
  | .commandParameter _ argument => argument.toList
  | .fileRedirection location _ => [location]
  | .constant _ | .stringConstant _ _ | .variable _ _ | .typeExpression _ => []
  | .expandableString _ _ nested => nested
  | .convert target child => [target, child]
  | .member target name _ => [target, name]
  | .invokeMember target name _ arguments => target :: name :: arguments
  | .index target position => [target, position]
  | .unary _ child => [child]
  | .binary _ left right _ => [left, right]
  | .arrayLiteral elements => elements
  | .arrayExpression body | .subExpression body => [body]
  | .hashtable pairs => pairs.flatMap fun (key, value) => [key, value]
  | .paren inner => [inner]
  | .scriptBlockExpression body => [body]
  | .errorExpression nested => nested

namespace Node

def id : Node → Nat
  | .mk id _ _ => id

def extent : Node → Extent
  | .mk _ extent _ => extent

def form : Node → Form
  | .mk _ _ form => form

def kind (n : Node) : NodeKind := n.form.kind

def isExpression (n : Node) : Bool := n.kind.isExpression

def children (n : Node) : List Node := n.form.children

/-- Two nodes of one script are the same node when their numbers agree. -/
def same (a b : Node) : Bool := a.id == b.id

def new (extent : Extent) (form : Form) : Node := .mk 0 extent form

def start (n : Node) : Nat := n.extent.start

def stop (n : Node) : Nat := n.extent.stop

def text (n : Node) : Text := n.extent.text

def stringConstant? (n : Node) : Option Text :=
  match n.form with
  | .stringConstant value _ => some value
  | _ => none

def variablePath? (n : Node) : Option Text :=
  match n.form with
  | .variable path _ => some path
  | _ => none

def constraintType? (n : Node) : Option WrittenType :=
  match n.form with
  | .typeConstraint typeName => some typeName
  | _ => none

end Node

end TabCompletion
