import TabCompletion.Json.Basic
import TabCompletion.Syntax.CommandLine

/-!
Syntax trees and tokens in JSON. A node is an object with its kind, its extent as a pair of offsets
and its fields; a list that is left out is empty, a flag that is left out is false.
-/

namespace TabCompletion.Exchange

/-! Small readers. -/

def textOf (j : Json) (name : Text) : Text := (j.get name).text?.getD []

def textOf? (j : Json) (name : Text) : Option Text := (j.get name).text?

def flagOf (j : Json) (name : Text) : Bool := (j.get name).bool?.getD false

def natOf (j : Json) : Nat := j.nat?.getD 0

def textsOf (j : Json) : List Text := j.items.filterMap Json.text?

mutual

def depth : Json → Nat
  | .array items => depthItems items + 1
  | .object fields => depthFields fields + 1
  | _ => 1

def depthItems : List Json → Nat
  | [] => 0
  | item :: rest => max (depth item) (depthItems rest)

def depthFields : List (Text × Json) → Nat
  | [] => 0
  | (_, value) :: rest => max (depth value) (depthFields rest)

end

def extentOf (source : Text) (j : Json) : Extent :=
  match j.items with
  | [start, stop] => Extent.ofSource source (natOf start) (natOf stop)
  | _ => ⟨0, 0, []⟩

/-! Type names. -/

def writtenType (source : Text) : Nat → Json → WrittenType
  | 0, _ => .simple [] ⟨0, 0, []⟩
  | fuel + 1, j =>
      let name := textOf j "fullName"
      let extent := extentOf source (j.get "extent")
      if (j.get "nameKind").text? == some (Text.ofString "Generic") then
        .generic name extent (writtenType source fuel (j.get "typeName"))
          ((j.get "genericArguments").items.map (writtenType source fuel))
      else if (j.get "nameKind").text? == some (Text.ofString "Array") then
        .array name extent (writtenType source fuel (j.get "elementType"))
      else .simple name extent

def typeNameOf (source : Text) (j : Json) : WrittenType := writtenType source (depth j) j

/-! Nodes. -/

def usingKind (t : Text) : UsingKind :=
  if t == Text.ofString "Module" then .module
  else if t == Text.ofString "Assembly" then .assembly else .nameSpace

def stringStyle (t : Text) : StringStyle :=
  if t == Text.ofString "SingleQuoted" then .singleQuoted
  else if t == Text.ofString "DoubleQuoted" then .doubleQuoted
  else if t == Text.ofString "SingleQuotedHereString" then .singleQuotedHere
  else if t == Text.ofString "DoubleQuotedHereString" then .doubleQuotedHere
  else .bareWord

def invocation? (j : Json) : Option InvocationOperator :=
  match j.text? with
  | some t => some (if t == Text.ofString "Dot" then .dot else .ampersand)
  | none => none

def constantOf : Json → Constant
  | .bool b => .bool b
  | .number n => .number n
  | _ => .null

def formOf (source : Text) (child : Json → Node) (j : Json) : Form :=
  let one (name : String) : Node := child (j.get name)
  let optional (name : String) : Option Node :=
    match j.get name with
    | .object fields => some (child (.object fields))
    | _ => none
  let many (name : String) : List Node := (j.get name).items.map child
  let name := textOf j "name"
  let isStatic := flagOf j "isStatic"
  match NodeKind.ofText? (textOf j "kind") with
  | some .scriptBlock =>
      .scriptBlock (optional "paramBlock") (many "usingStatements") (many "statements")
  | some .paramBlock => .paramBlock (many "attributes") (many "parameters")
  | some .parameter => .parameter (many "attributes") (one "name") (optional "defaultValue")
  | some .statementBlock => .statementBlock (many "statements")
  | some .attribute =>
      .attribute (typeNameOf source (j.get "typeName")) (many "positionalArguments") (many "namedArguments")
  | some .namedAttributeArgument =>
      .namedAttributeArgument (textOf j "argumentName") (optional "argument")
  | some .typeConstraint => .typeConstraint (typeNameOf source (j.get "typeName"))
  | some .usingStatement => .usingStatement (usingKind (textOf j "usingKind")) (optional "name")
  | some .pipeline => .pipeline (many "elements")
  | some .assignment => .assignment (one "left") (textOf j "operator") (one "right")
  | some .functionDefinition =>
      .functionDefinition name (flagOf j "isFilter")
        ((j.get "parameters").items?.map (·.map child)) (one "body")
  | some .typeDefinition =>
      .typeDefinition name (flagOf j "isClass") (flagOf j "isEnum") (many "baseTypes") (many "members")
  | some .propertyMember =>
      .propertyMember name (optional "propertyType") isStatic (flagOf j "isHidden")
        (optional "initialValue")
  | some .functionMember =>
      .functionMember name (many "parameters") (optional "returnType") isStatic (flagOf j "isHidden")
        (flagOf j "isConstructor") (one "body")
  | some .ifStatement =>
      .ifStatement ((j.get "clauses").items.map fun clause =>
        (child (clause.get "condition"), child (clause.get "body"))) (optional "elseClause")
  | some .forEachStatement => .forEachStatement (one "variable") (one "condition") (one "body")
  | some .errorStatement =>
      .errorStatement (textOf? j "keyword")
        ((j.get "flags").items.map fun flag =>
          { name := textOf flag "name", extent := extentOf source (flag.get "extent"),
            argument := match flag.get "argument" with
              | .object fields => some (child (.object fields))
              | _ => none })
        (many "nestedAsts")
  | some .command =>
      .command (many "elements") (invocation? (j.get "invocationOperator")) (many "redirections")
  | some .commandExpression => .commandExpression (one "expression") (many "redirections")
  | some .commandParameter => .commandParameter (textOf j "parameterName") (optional "argument")
  | some .fileRedirection => .fileRedirection (one "location") (flagOf j "append")
  | some .constant => .constant (constantOf (j.get "value"))
  | some .stringConstant => .stringConstant (textOf j "value") (stringStyle (textOf j "stringConstantType"))
  | some .expandableString =>
      .expandableString (textOf j "value") (stringStyle (textOf j "stringConstantType"))
        (many "nestedExpressions")
  | some .variable => .variable (textOf j "variablePath") (flagOf j "splatted")
  | some .typeExpression => .typeExpression (typeNameOf source (j.get "typeName"))
  | some .convert => .convert (one "type") (one "child")
  | some .member => .member (one "expression") (one "member") isStatic
  | some .invokeMember => .invokeMember (one "expression") (one "member") isStatic (many "arguments")
  | some .index => .index (one "target") (one "index")
  | some .unary => .unary (textOf j "operator") (one "child")
  | some .binary =>
      .binary (textOf j "operator") (one "left") (one "right") (extentOf source (j.get "errorPosition"))
  | some .arrayLiteral => .arrayLiteral (many "elements")
  | some .arrayExpression => .arrayExpression (one "subExpression")
  | some .hashtable =>
      .hashtable ((j.get "pairs").items.map fun pair =>
        (child (pair.get "key"), child (pair.get "value")))
  | some .paren => .paren (one "pipeline")
  | some .subExpression => .subExpression (one "subExpression")
  | some .scriptBlockExpression => .scriptBlockExpression (one "scriptBlock")
  | some .errorExpression | none => .errorExpression (many "nestedAsts")

def nodeWithin (source : Text) : Nat → Json → Node
  | 0, _ => .new ⟨0, 0, []⟩ (.errorExpression [])
  | fuel + 1, j => .new (extentOf source (j.get "extent")) (formOf source (nodeWithin source fuel) j)

def treeOf (source : Text) (j : Json) : Node := nodeWithin source (depth j) j

/-! Tokens. -/

def tokenOf (source : Text) (j : Json) : Token :=
  let extent := extentOf source (j.get "extent")
  { kind := (TokenKind.ofText? (textOf j "kind")).getD .unknown
    text := (textOf? j "text").getD extent.text
    extent
    flags := (textsOf (j.get "flags")).filterMap TokenFlag.ofText?
    variablePath := textOf? j "variablePath" }

def tokensOf (source : Text) (j : Json) : List Token := j.items.map (tokenOf source)

def scriptOf (j : Json) : Script :=
  let source := textOf j "source"
  Script.ofTree source (treeOf source (j.get "ast")) ((j.get "link").bool? != some false)

end TabCompletion.Exchange
