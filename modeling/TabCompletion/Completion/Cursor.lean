import TabCompletion.Completion.Context
import TabCompletion.Language

/-!
Reading the surroundings of the cursor: the token under it, the nodes around it, what a member
access refers to, and which part of a type name is being typed.
-/

namespace TabCompletion

structure RequestOptions where
  options : OptionOverrides := {}
  session : Option Session := none
  completers : Assoc ArgumentCompleter := []

namespace Cursor

def tokenAt? (tokens : List Token) (cursor : Int) : Option (Token × Nat) :=
  (tokens.zipIdx.filter fun (t, _) => t.isInteresting && t.extent.touches cursor).getLast?

def tokenBefore? (tokens : List Token) (cursor : Int) : Option (Token × Nat) :=
  if (tokenAt? tokens cursor).isSome then none
  else (tokens.zipIdx.filter fun (t, _) => t.isInteresting && t.extent.endsBefore cursor).getLast?

/-- The position around which nodes are looked for: after a blank, the end of the token before
it. -/
def searchPosition (tokens : List Token) (cursor : Int) : Int :=
  match tokenBefore? tokens cursor with
  | some (token, _) => token.extent.stop
  | none => cursor

def relatedNodes (s : Script) (position : Int) : List Node :=
  let touched := s.all.filter (·.extent.touches position)
  if touched.head?.any (·.same s.root) then touched else s.root :: touched

def context (s : Script) (tokens : List Token) (cursor : Int) (request : RequestOptions) : Context :=
  let related := relatedNodes s (searchPosition tokens cursor)
  { script := s
    cursor, related
    tokenAt := (tokenAt? tokens cursor).map (·.1)
    tokenBefore := (tokenBefore? tokens cursor).map (·.1)
    options := Options.ofOverrides request.options
    session := request.session
    replacementIndex := cursor
    replacementLength := 0
    currentType := related.getLast?.bind (s.ancestorOfKind? .typeDefinition)
    completers := lowerKeys request.completers }

/-! Kinds of places. -/

def isCommandOrParameter (n : Option Node) : Bool := n.any fun n => n.kind == .command || n.kind == .commandParameter

def hasKind (kind : NodeKind) (n : Option Node) : Bool := n.any (·.kind == kind)

/-- Whether a node is an argument or a parameter of a command, possibly in a comma list. -/
def isArgument (c : Context) (n : Option Node) : Bool :=
  isCommandOrParameter n || match n.filter (·.isExpression) with
    | none => false
    | some expression =>
        let parent := c.parent? expression
        isCommandOrParameter parent ||
          (hasKind .arrayLiteral parent && isCommandOrParameter (parent.bind c.parent?))

def accessParts? (n : Node) : Option (Node × Node × Bool) :=
  match n.form with
  | .member target name isStatic | .invokeMember target name isStatic _ => some (target, name, isStatic)
  | _ => none

def memberAccess? (c : Context) (n : Node) : Option Node :=
  if (accessParts? n).isSome then some n
  else (c.parent? n).filter fun parent =>
    match accessParts? parent with
    | some (_, name, _) => name.same n
    | none => false

def isPostfix (n : Node) : Bool :=
  n.kind == .member || n.kind == .invokeMember || n.kind == .index || n.kind == .convert

def widen (offset : Nat) : Node → List Node → Node
  | current, [] => current
  | current, parent :: rest =>
      if isPostfix parent && parent.stop == offset then widen offset parent rest else current

def expressionEndingAt? (c : Context) (offset : Nat) : Option Node :=
  c.root?.bind fun root =>
    ((root.preorder.filter fun n => n.isExpression && n.stop == offset && n.start < offset).getLast?).map
      fun inner => widen offset inner ((c.script.ancestors inner).drop 1)

/-- The expression whose members are asked for: the left side of a member access, or what stands
before the dot or the colons under the cursor. -/
def memberTarget? (c : Context) : Option Node :=
  match c.innermost?.bind (memberAccess? c) with
  | some access => (accessParts? access).map (·.1)
  | none =>
      match c.tokenAt with
      | some token =>
          if token.kind == .dot || token.kind == .colonColon || token.text == Text.ofString "."
              || token.text == Text.ofString "::" then
            expressionEndingAt? c token.extent.start
          else none
      | none => none

def pathText? (n : Node) : Option Text :=
  let typed (value : Text) (style : StringStyle) : Option Text :=
    match style with
    | .bareWord => some value
    | .singleQuoted => some ("'" ++ value)
    | .doubleQuoted => some ("\"" ++ value)
    | _ => none
  match n.form with
  | .stringConstant value style => typed value style
  | .expandableString value style [] => typed value style
  | _ => none

mutual

/-- The part of a type name under the cursor; of a generic type the argument being typed. -/
def typeNameAt? (cursor : Int) : WrittenType → Option (Text × Extent)
  | .simple name extent => if extent.touches cursor then some (name, extent) else none
  | .generic _ _ definition arguments =>
      match typeNameAt? cursor definition with
      | some found => some found
      | none => typeNameAmong? cursor arguments
  | .array _ _ element => typeNameAt? cursor element

def typeNameAmong? (cursor : Int) : List WrittenType → Option (Text × Extent)
  | [] => none
  | name :: rest =>
      match typeNameAt? cursor name with
      | some found => some found
      | none => typeNameAmong? cursor rest

end

/-- Whether an ampersand has to be considered before a command. The choice flips for a command that
is a name alone: a bare name may need one, a name behind an invocation operator does not. -/
def needsAmpersand (c : Context) (choice : Bool) : Bool :=
  match (c.innermost?.bind c.parent?).map Node.form with
  | some (.command [_] invocation _) =>
      if !c.word.isEmpty && choice == invocation.isSome then !choice else choice
  | _ => choice

def hasPendingValue (hashtable : Node) : Bool :=
  match hashtable.form with
  | .hashtable pairs => pairs.any fun (_, value) => value.kind == .errorStatement
  | _ => false

/-! Statements that are not finished. -/

def brokenStatement? (n : Node) : Option (Option Text × List (StatementFlag Node)) :=
  match n.form with
  | .errorStatement keyword flags _ => some (keyword, flags)
  | _ => none

def isSwitchKeyword (keyword : Option Text) : Bool := keyword.any fun k => Text.lower k == Text.ofString "switch"

def isFileFlag (flag : StatementFlag Node) : Bool := Text.lower flag.name == Text.ofString "file"

def isSwitchFile (c : Context) (n : Node) (tokenBefore : Option Token) : Bool :=
  match brokenStatement? n with
  | some (keyword, flags) =>
      isSwitchKeyword keyword && match tokenBefore, flags.find? isFileFlag with
        | some token, some flag => flag.extent.stop == token.extent.stop
        | _, _ => false
  | none =>
      match (c.parent? n).filter (·.kind == .commandExpression) with
      | none => false
      | some expression =>
          match (c.parent? expression).filter (·.kind == .pipeline) with
          | none => false
          | some pipeline =>
              match (c.parent? pipeline).bind brokenStatement? with
              | some (keyword, flags) =>
                  isSwitchKeyword keyword &&
                    flags.any fun flag => isFileFlag flag && flag.argument.any (·.same pipeline)
              | none => false

def isOperatorPlace (c : Context) (token : Token) (n : Option Node) : Bool :=
  match token.kind, n.map Node.form with
  | .minus, some (.binary _ _ _ _) => true
  | .parameter, some (.binary _ _ _ operatorExtent) => operatorExtent.start == token.extent.start
  | .parameter, some (.commandParameter _ _) => (n.bind c.parent?).any (·.isExpression)
  | _, _ => false

def flagKeyword? (n : Option Node) : Option Text :=
  match n.bind brokenStatement? with
  | some (some keyword, _) => if (Language.flagsOf? keyword).isSome then some keyword else none
  | _ => none

def flagKeywordAtDash? (c : Context) (token : Token) : Option Text :=
  let place := token.extent.start
  let before := c.root?.bind fun root =>
    (root.preorder.filter fun n => n.extent.endsBefore place).getLast?
  let statement := before.bind (c.script.ancestorOfKind? .errorStatement)
  match statement.bind brokenStatement? with
  | some (_, flags) => if flags.any (·.extent.start == place) then flagKeyword? statement else none
  | none => none

def isLineEmpty (c : Context) : Bool :=
  let text := (c.root?.map Node.text).getD []
  let cursor := (min c.cursor text.length).toNat
  let isBreak (u : CodeUnit) : Bool := u == '\n'
  let lineStart : Nat := ((Text.findLastIndex? isBreak (text.take (max cursor 1))).map (· + 1)).getD 0
  let lineEnd : Nat := ((Text.findIndex? isBreak (text.drop cursor)).map (· + cursor)).getD text.length
  (Text.trim (Text.between text lineStart lineEnd)).isEmpty

/-! Member access inside strings. -/

/-- The access to a member of a variable that ends a text: `$name.part`. -/
def variableAccess? (typed : Text) : Option Text :=
  match Text.lastIndexOf? "." typed with
  | none => none
  | some dot =>
      let name := ((typed.take dot).reverse.takeWhile Text.isWordUnit).reverse
      let before := typed.take (dot - name.length)
      if !name.isEmpty && Text.endsWith before "$"
          && (typed.drop (dot + 1)).all fun (u : CodeUnit) => Text.isWordUnit u || u == '*' then
        some (typed.drop (before.length - 1))
      else none

/-- The access to a static member that ends a text: `[name]::part`. -/
def staticAccess? (typed : Text) : Option Text :=
  let isNameUnit (u : CodeUnit) : Bool := Text.isWordUnit u || u == '.'
  match Text.lastIndexOf? "]::" typed with
  | none => none
  | some closing =>
      let name := ((typed.take closing).reverse.takeWhile isNameUnit).reverse
      let before := typed.take (closing - name.length)
      if !name.isEmpty && Text.endsWith before "["
          && (typed.drop (closing + 3)).all fun (u : CodeUnit) => Text.isWordUnit u || u == '*' then
        some (typed.drop (before.length - 1))
      else none

end Cursor

end TabCompletion
