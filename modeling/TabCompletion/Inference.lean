import TabCompletion.Binding.Basic
import TabCompletion.Cim.Basic
import TabCompletion.Syntax.View
import TabCompletion.Types.Registry

/-!
What an expression would produce, worked out without running it. An empty list means that nothing
is known. Inference jumps from a variable to its latest declaration, which may mention the variable
again; a node that is being inferred is closed, so each way through the script ends.
-/

namespace TabCompletion

inductive InferredType where
  | reflected (typeName : Text)
  /-- A class that the script defines. -/
  | scriptClass (definition : Node)
  | cim (nameSpace className : Text)

def InferredType.key : InferredType → Text
  | .reflected typeName => "r:" ++ Text.lower typeName
  | .scriptClass definition =>
      "s:" ++ Text.lower definition.className ++ ":" ++ Text.ofNat definition.start
  | .cim nameSpace className => "c:" ++ Text.lower nameSpace ++ "/" ++ Text.lower className

structure Inference where
  registry : Registry
  attachments : Attachments
  binder : Option Binder
  script : Script

namespace Inference

def boolean : InferredType := .reflected "System.Boolean"

def string : InferredType := .reflected "System.String"

def objectArray : InferredType := .reflected "System.Object[]"

/-- The type of a written name: a class of the script first, then a management class, then a
registered type. -/
def resolve (m : Inference) (name : Text) (root : Option Node) : InferredType :=
  match findClass? name root with
  | some definition => .scriptClass definition
  | none =>
      match Cim.ofTypeName? name with
      | some (nameSpace, className) => .cim nameSpace className
      | none => .reflected ((m.registry.resolveFullName name).getD name)

def resolveAt (m : Inference) (name : Text) (node : Node) : InferredType :=
  m.resolve name (m.script.rootOf? node)

/-! Commands. -/

def literal? (n : Option Node) : Option Text := (n.bind Node.literalText?).filter (!·.isEmpty)

def namedOrFirst (command : Node) (name : String) : Option Node :=
  (Command.namedArgument? command name).or (Command.positionalArguments command).head?

def cimNamespaceOf (command : Node) : Text :=
  ((Command.namedArgument? command "Namespace").bind Node.literalText?).getD Cim.defaultNamespace

def declaredOutput (m : Inference) (command : Node) : List InferredType :=
  match m.binder.bind (· command) with
  | some binding =>
      ((binding.command.map (·.outputTypes)).getD []).map fun name => m.resolveAt name command
  | none => []

def ofCommand (m : Inference) (command : Node) : List InferredType :=
  match command.commandName?.filter (!·.isEmpty) with
  | none => []
  | some written =>
      let name := Text.lower (Command.stripModule written)
      let is (word : String) : Bool := name == Text.ofString word
      if is "new-object" then
        ((literal? (namedOrFirst command "TypeName")).map fun typeName => m.resolveAt typeName command).toList
      else if is "get-ciminstance" || is "new-ciminstance" then
        match literal? (namedOrFirst command "ClassName") with
        | some className => [.cim (cimNamespaceOf command) className]
        | none => m.declaredOutput command
      else m.declaredOutput command

/-! Members. -/

def ofReflectedMember (m : Inference) (typeName lowered : Text) (isStatic : Bool) (root : Option Node) :
    List InferredType :=
  let members := m.attachments.get typeName ++ m.registry.getMembers typeName isStatic
  match members.find? fun member => Text.lower member.name == lowered with
  | none => []
  | some member =>
      let result := if member.isMethodLike then
          (member.overloads.bind List.head?).map (·.returnType)
        else member.typeName
      ((result.filter (!·.isEmpty)).map fun name => m.resolve name root).toList

/-- The member of a class of the script: the first declaration along the base types. `unvisited`
holds the numbers of the classes that were not looked at. -/
def ofClassMember (m : Inference) (lowered : Text) (isStatic : Bool) (root : Option Node)
    (unvisited : List Nat) (pending : List InferredType) : List InferredType :=
  match pending with
  | [] => []
  | .scriptClass definition :: rest =>
      if _isOpen : definition.id ∈ unvisited then
        let declared := definition.classMembers.find? fun member =>
          Text.lower member.name == lowered && member.isStatic == isStatic
        match declared with
        | some member =>
            match member.typeName with
            | some typeName => [m.resolve typeName root]
            | none => ofClassMember m lowered isStatic root (unvisited.erase definition.id) rest
        | none =>
            let bases := definition.baseTypeNames.map fun name => m.resolve name root
            ofClassMember m lowered isStatic root (unvisited.erase definition.id) (bases ++ rest)
      else ofClassMember m lowered isStatic root unvisited rest
  | .reflected typeName :: rest =>
      let found := m.ofReflectedMember typeName lowered isStatic root
      if found.isEmpty then ofClassMember m lowered isStatic root unvisited rest else found
  | .cim _ _ :: rest => ofClassMember m lowered isStatic root unvisited rest
termination_by (unvisited.length, pending.length)
decreasing_by
  all_goals first
    | (apply Prod.Lex.left
       have positive := List.length_pos_of_mem _isOpen
       rw [List.length_erase_of_mem _isOpen]
       omega)
    | (apply Prod.Lex.right; simp)

def ofMember (m : Inference) (target : InferredType) (name : Text) (isStatic : Bool)
    (root : Option Node) : List InferredType :=
  let lowered := Text.lower name
  if isStatic && lowered == Text.ofString "new" then [target]
  else match target with
    | .reflected typeName => m.ofReflectedMember typeName lowered isStatic root
    | .scriptClass _ =>
        m.ofClassMember lowered isStatic root (List.range m.script.nodes.size) [target]
    | .cim _ _ => []

def elements (m : Inference) : InferredType → List InferredType
  | .reflected typeName =>
      match ((m.registry.getType typeName).bind (·.elementType)).filter (!·.isEmpty) with
      | some element => [.reflected element]
      | none =>
          match (TypeName.parse typeName).arguments with
          | [argument] => [.reflected ((m.registry.resolveFullName argument).getD argument)]
          | _ =>
              if Text.lower typeName == Text.ofString "system.string" then [.reflected "System.Char"]
              else [.reflected "System.Object"]
  | _ => []

/-! Variables. -/

/-- Whether a node declares the variable for its use: a parameter, an assignment elsewhere or a loop
around the use. -/
def declares (lowered : Text) (use candidate : Node) : Bool :=
  let matchesName (target : Node) : Bool :=
    target.assignedPath?.any fun path => Text.lower (unscopedName path) == lowered
  match candidate.form with
  | .parameter _ name _ => matchesName name
  | .assignment left _ _ => matchesName left && !candidate.covers use
  | .forEachStatement loopVariable _ body => matchesName loopVariable && body.covers use
  | _ => false

def latestDeclaration? (root use : Node) (lowered : Text) : Option Node :=
  root.preorder.foldl (fun best candidate =>
    if declares lowered use candidate && candidate.start < use.start then
      match best with
      | some current => if current.start ≤ candidate.start then some candidate else some current
      | none => some candidate
    else best) none

def ofDeclaration (m : Inference) (infer : Node → List InferredType) (declaration : Node) :
    List InferredType :=
  match declaration.form with
  | .parameter attributes _ defaultValue =>
      match Node.constraintAmong? attributes with
      | some typeName => [m.resolveAt typeName declaration]
      | none => (defaultValue.map infer).getD []
  | .assignment left _ right =>
      match left.conversion? with
      | some (typeName, _) => [m.resolveAt typeName declaration]
      | none => infer right
  | .forEachStatement _ condition _ => (infer condition).flatMap m.elements
  | _ => []

def ofVariable (m : Inference) (infer : Node → List InferredType) (use : Node) (path : Text) :
    List InferredType :=
  let lowered := Text.lower (unscopedName path)
  let is (word : String) : Bool := lowered == Text.ofString word
  if is "this" then
    ((m.script.ancestorOfKind? .typeDefinition use).map InferredType.scriptClass).toList
  else if is "true" || is "false" then [boolean]
  else match (m.script.rootOf? use).bind fun root => latestDeclaration? root use lowered with
    | some declaration => m.ofDeclaration infer declaration
    | none => []

/-! Operators. -/

def comparisons : List String := ["eq", "ne", "gt", "ge", "lt", "le", "like", "notlike", "match",
  "notmatch", "contains", "notcontains", "in", "notin", "is", "isnot", "and", "or", "xor"]

def isComparison (name : Text) : Bool := comparisons.any fun c => Text.ofString c == name

def operatorName (operator : Text) : Text :=
  let lowered := Text.lower operator
  let name := if Text.startsWith lowered "-" then lowered.drop 1 else lowered
  let isCased := 2 < name.length && (Text.startsWith name "c" || Text.startsWith name "i")
  if isCased && isComparison (name.drop 1) then name.drop 1 else name

def ofBinary (m : Inference) (infer : Node → List InferredType) (node : Node) (operator : Text)
    (left right : Node) : List InferredType :=
  let name := operatorName operator
  let is (word : String) : Bool := name == Text.ofString word
  if isComparison name then [boolean]
  else if is "as" then
    (right.typeExpression?.map fun typeName => m.resolveAt typeName.fullName node).toList
  else if is "split" then [.reflected "System.String[]"]
  else if is "join" then [string]
  else if is ".." then [objectArray]
  else infer left

def ofUnary (infer : Node → List InferredType) (operator : Text) (child : Node) : List InferredType :=
  let lowered := Text.lower operator
  let is (word : String) : Bool := lowered == Text.ofString word
  if is "!" || is "-not" then [boolean]
  else if is "," then [objectArray]
  else infer child

def ofAccess (m : Inference) (infer : Node → List InferredType) (node target name : Node)
    (isStatic : Bool) : List InferredType :=
  match name.stringConstant? with
  | none => []
  | some memberName =>
      let targets := match isStatic, target.typeExpression? with
        | true, some typeName => [m.resolveAt typeName.fullName node]
        | _, _ => infer target
      targets.flatMap fun type => m.ofMember type memberName isStatic (m.script.rootOf? node)

/-! Nodes. -/

def ofNode (m : Inference) (infer : Node → List InferredType) (node : Node) : List InferredType :=
  let last (nodes : List Node) : List InferredType := (nodes.getLast?.map infer).getD []
  match node.form with
  | .constant .null => []
  | .constant (.bool _) => [boolean]
  | .constant (.number n) =>
      [.reflected (if n.toInt?.isSome then "System.Int32" else "System.Double")]
  | .stringConstant _ _ | .expandableString _ _ _ => [string]
  | .arrayLiteral _ | .arrayExpression _ => [objectArray]
  | .hashtable _ => [.reflected "System.Collections.Hashtable"]
  | .scriptBlockExpression _ => [.reflected "System.Management.Automation.ScriptBlock"]
  | .typeExpression _ => [.reflected "System.RuntimeType"]
  | .convert target _ => [m.resolveAt ((Node.constraintName? (some target)).getD []) node]
  | .paren inner => infer inner
  | .subExpression body => last body.statements
  | .pipeline elements => last elements
  | .commandExpression expression _ => infer expression
  | .command _ _ _ => m.ofCommand node
  | .assignment _ _ right => infer right
  | .variable path _ => m.ofVariable infer node path
  | .member target name isStatic => m.ofAccess infer node target name isStatic
  | .invokeMember target name isStatic _ => m.ofAccess infer node target name isStatic
  | .index target _ => (infer target).flatMap m.elements
  | .binary operator left right _ => m.ofBinary infer node operator left right
  | .unary operator child => ofUnary infer operator child
  | _ => []

/-- The types of a node whose number is open; it is closed while its parts are inferred. -/
def inferWithin (m : Inference) (opened : List Nat) (node : Node) : List InferredType :=
  if _isOpen : node.id ∈ opened then
    m.ofNode (fun part => inferWithin m (opened.erase node.id) part) node
  else []
termination_by opened.length
decreasing_by
  have positive := List.length_pos_of_mem _isOpen
  rw [List.length_erase_of_mem _isOpen]
  omega

def infer (m : Inference) (node : Node) : List InferredType :=
  dedupeBy InferredType.key (m.inferWithin (List.range m.script.nodes.size) node)

end Inference

end TabCompletion
