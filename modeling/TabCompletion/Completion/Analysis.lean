import TabCompletion.Completion.Argument
import TabCompletion.Completion.Cursor
import TabCompletion.Completion.HashtableKey
import TabCompletion.Completion.History
import TabCompletion.Completion.Operator
import TabCompletion.Completion.Parameter
import TabCompletion.Completion.TypeName
import TabCompletion.Completion.Variable

/-!
Which completion the cursor asks for. The token under the cursor picks the route; after a blank the
nodes around the cursor do. A route that finds nothing falls back to type names, to the keys of a
hashtable and at last to the whole input as a file name. A route may change the word and the span
that is replaced.
-/

namespace TabCompletion.Analysis

open Cursor

abbrev Step := StateT Context Engine

def setWord (word : Text) : Step Unit := modify fun c => { c with word }

def setSpan (index length : Int) : Step Unit :=
  modify fun c => { c with replacementIndex := index, replacementLength := length }

def skipSpan (units : Int) : Step Unit :=
  modify fun c => { c with replacementIndex := c.replacementIndex + units, replacementLength := 0 }

def setExtent (e : Extent) : Step Unit := setSpan e.start ((e.stop : Int) - e.start)

/-- Starts the replaced span at an extent and makes it longer by that. -/
def extendFrom (e : Extent) : Step Unit :=
  modify fun c => { c with
    replacementIndex := e.start
    replacementLength := c.replacementLength + ((e.stop : Int) - e.start) }

def complete (completion : Context → Engine (List Result)) : Step (List Result) := do
  completion (← get)

def completeWord (word : Text) (completion : Context → Engine (List Result)) : Step (List Result) := do
  setWord word
  complete completion

def orElse (first second : Step (List Result)) : Step (List Result) := do
  let results ← first
  if results.isEmpty then second else return results

/-! Parts of routes. -/

/-- Paths in the place of a command are literal; a quoted one gets an ampersand where that is
needed. -/
def filesAsCommand : Step (List Result) := do
  let c ← get
  let addAmpersand := needsAmpersand c true
  let results ← Completion.literalFileNames c
  return results.map fun r =>
    let quoted := 2 < r.text.length && Text.startsWith r.text "'" && Text.endsWith r.text "'"
    if addAmpersand && quoted then Result.of ("& " ++ r.text) r.kind r.listItem r.toolTip else r

def commandNames : Step (List Result) := do
  let c ← get
  Completion.commands c { addAmpersand := needsAmpersand c false }

def filesAndCommands : Step (List Result) := do
  let files ← filesAsCommand
  return files ++ (← commandNames)

/-- The keys of the hashtable that the cursor is in. After the closing brace it is outside. -/
def keysAtCursor : Step (List Result) := do
  let c ← get
  match c.innermost?.filter (·.kind == .hashtable) with
  | none => return []
  | some hashtable =>
      let stop : Int := hashtable.stop
      let closed := c.tokenAt.any (·.kind == .rCurly)
      if c.cursor < stop || (c.cursor == stop && !closed) then do
        setSpan c.cursor 0
        complete (Completion.hashtableKeys · hashtable)
      else return []

def typeNameAtCursor : Step (List Result) := do
  let c ← get
  let typeName := match c.related.findSome? Node.typeExpression? with
    | some written => some written
    | none => c.related.findSome? Node.constraintType?
  match typeName.bind (typeNameAt? c.cursor) with
  | none => return []
  | some (name, extent) => do
      setExtent extent
      completeWord name (Completion.typeNames ·)

def inputAsFile : Step (List Result) := do
  let c ← get
  match c.root? with
  | none => return []
  | some root =>
      if root.text.isEmpty || root.text.any Text.isSpace then return []
      else do
        setExtent root.extent
        setWord root.text
        filesAsCommand

def attributeArgumentAtCursor : Step (List Result) := do
  let c ← get
  let named := c.related.find? (·.kind == .namedAttributeArgument)
  match named, (named.bind c.parent?).filter (·.kind == .attribute) with
  | some argument, some owner => do
      let name := match argument.form with
        | .namedAttributeArgument name _ => name
        | _ => []
      let results ← Completion.attributeArguments { c with word := name } owner
      if !results.isEmpty then setSpan argument.start name.length
      return results
  | _, _ =>
      match c.related.find? (·.kind == .attribute) with
      | some owner => complete (Completion.attributeArguments · owner)
      | none => return []

/-! Members. -/

inductive MemberPlace where
  | none
  /-- The word is the name of a member. -/
  | name (target : Node) (isStatic : Bool)
  /-- The word is the dot or the colons. -/
  | operator (target : Node) (isStatic : Bool)
  /-- The word is a star that ends a member name and was read as a multiplication. -/
  | star (product access target member : Node) (isStatic : Bool)

def memberPlace (c : Context) (token : Token) (last : Option Node) : MemberPlace :=
  let byName := match last with
    | some node =>
        match (c.parent? node).map Node.form with
        | some (.member target name isStatic) => if name.same node then some (target, isStatic) else none
        | _ => none
    | none => none
  match byName with
  | some (target, isStatic) => .name target isStatic
  | none =>
      let isColons := token.text == Text.ofString "::"
      if isColons || token.text == Text.ofString "." then
        match expressionEndingAt? c token.extent.start with
        | some target => .operator target isColons
        | none => .none
      else match token.kind, last, last.map Node.form with
        | .multiply, some product, some (.binary operator left _ operatorExtent) =>
            match left.form with
            | .member target name isStatic =>
                if operator == Text.ofString "*" && operatorExtent.start == name.stop then
                  .star product left target name isStatic
                else .none
            | _ => .none
        | _, _, _ => .none

def membersAtWord (token : Token) (last : Option Node) : Step (List Result) := do
  match memberPlace (← get) token last with
  | .none => return []
  | .name target isStatic => complete (Completion.members · target isStatic)
  | .operator target isStatic => do
      let results ← completeWord [] (Completion.members · target isStatic)
      if !results.isEmpty then skipSpan token.text.length
      return results
  | .star product access target name isStatic => do
      modify fun c => { c with related := c.related.filter (fun n => !n.same product) ++ [access] }
      match name.stringConstant? with
      | some written => do
          setWord (written ++ "*")
          extendFrom name.extent
      | none => pure ()
      complete (Completion.members · target isStatic)

def staticMembersAfter (type : Node) : Step (List Result) := do
  let results ← Completion.members { ← get with word := [] } type true
  if results.isEmpty then return []
  else do
    skipSpan 1
    return results.map fun r => Result.of ("::" ++ r.text) r.kind r.listItem r.toolTip

/-! Words. -/

def moduleExtensions : List Text := [".psm1", ".psd1", ".dll", ".cdxml", ".xaml"]

def isPathUnit (u : CodeUnit) : Bool := u == '\\' || u == '/' || u == ':'

def usingName (word : Node) : Step (Option (List Result)) := do
  let c ← get
  match (c.parent? word).map Node.form with
  | some (.usingStatement kind name) =>
      if name.any (·.same word) then do
        setExtent word.extent
        setWord word.text
        match kind with
        | .module => do
            let files ← complete (Completion.fileNames · { extensions := some moduleExtensions })
            if word.text.any isPathUnit then return some files
            else return some (files ++ (← complete (Completion.moduleNames · false)))
        | .nameSpace => return some (← complete Completion.namespaces)
        | .assembly => return none
      else return none
  | _ => return none

def adjacentNode? (c : Context) (start : Nat) : Option Node :=
  c.root?.bind fun root => (root.preorder.filter fun n => n.stop == start && n.start < start).getLast?

def isMissingIndex (c : Context) (n : Node) : Bool :=
  n.kind == .errorExpression && hasKind .index (c.parent? n)

/-- The place of a command name: paths first, then commands. A path that is glued to the node
before it is completed as one path. -/
def commandToken (token : Token) (inString : Bool) : Step (List Result) := do
  let c ← get
  let others : Step (List Result) := if inString then return [] else filesAndCommands
  match adjacentNode? c token.extent.start with
  | none => others
  | some adjacent =>
      if token.text.head?.any Completion.isSeparator then
        match pathText? adjacent with
        | some base => do
            let results ← completeWord (base ++ token.text) (Completion.fileNames ·)
            if !results.isEmpty then extendFrom adjacent.extent
            return results
        | none =>
            let value := match adjacent.variablePath?, c.session with
              | some path, some session => session.readVariable path
              | _, _ => .undefined
            match value with
            | .text base => do
                setWord (base ++ token.text)
                extendFrom adjacent.extent
                others
            | _ => return []
      else if isMissingIndex c adjacent then others
      else return []

def wordAsArgument (last : Option Node) (inString : Bool) : Step (List Result) := do
  let c ← get
  let parent := last.bind c.parent?
  let keys ← match parent.filter (·.kind == .hashtable) with
    | some hashtable => complete (Completion.hashtableKeys · hashtable)
    | none => pure []
  if !keys.isEmpty then return keys
  else match last with
    | none => return []
    | some node =>
        if inString then return []
        else
          let isFile := hasKind .fileRedirection parent || isSwitchFile c node c.tokenBefore
          match pathText? node with
          | some typed => do
              setWord typed
              if isFile then complete (Completion.fileNames ·) else complete Completion.argumentValues
          | none => complete Completion.argumentValues

def plainWord (token : Token) (last : Option Node) (inString : Bool) : Step (List Result) :=
  orElse attributeArgumentAtCursor do
    let c ← get
    if token.hasFlag .commandName then commandToken token inString
    else if token.text == Text.ofString "-" && hasKind .command (last.bind c.parent?) then
      if inString then return [] else complete Completion.parameterNames
    else orElse (membersAtWord token last) (wordAsArgument last inString)

def wordToken (token : Token) (inString : Bool) : Step (List Result) := do
  setWord token.text
  let last := (← get).innermost?
  match last, last.bind Node.stringConstant? with
  | some node, some value =>
      if value == Text.ofString "$" then completeWord "$" Completion.variableNames
      else
        match ← usingName node with
        | some results => return results
        | none => plainWord token last inString
  | _, _ => plainWord token last inString

def parameterToken (token : Token) (last : Option Node) : Step (List Result) := do
  setWord token.text
  let c ← get
  let isLoneName := (last.bind Node.stringConstant?).isSome && match (last.bind c.parent?).map Node.form with
    | some (.command [_] _ _) => true
    | _ => false
  if isLoneName then filesAsCommand
  else match flagKeyword? last with
    | some keyword => Completion.statementFlags keyword token.text
    | none =>
        if isOperatorPlace c token last then Completion.operators token.text
        else if Text.endsWith token.text ":" then do
          setSpan token.extent.stop 0
          completeWord [] Completion.argumentValues
        else complete Completion.parameterNames

/-! Strings. -/

/-- A result of a member access inside a string: properties and methods are wrapped so that they
expand there. -/
def wrapInString (typed : Text) (r : Result) : Result :=
  let text := typed ++ r.text
  let wrapped : Text := match r.kind with
    | .property => "$(" ++ text ++ ")"
    | .method => "$(" ++ text
    | _ => text
  Result.of (wrapped ++ "\"") r.kind r.listItem r.toolTip

def insideString (inner : Step (List Result)) (token : Token) (typed access : Text) :
    Step (List Result) := do
  match (← read).parse with
  | none => return []
  | some parse => do
      let c ← get
      let parsed := parse access access.length
      let start := context (Script.ofTree access parsed.tree) parsed.tokens access.length
        { options := c.options.toOverrides, session := c.session, completers := c.completers }
      let (results, final) ← (inner.run start : Engine _)
      if results.isEmpty then return []
      else do
        setSpan ((token.extent.start : Int) + 1 + typed.length - access.length) access.length
        return results.map (wrapInString (access.take final.replacementIndex.toNat))

def stringParts? (n : Node) : Option (Text × StringStyle) :=
  match n.form with
  | .stringConstant value style | .expandableString value style _ => some (value, style)
  | _ => none

def stringAsWord (node : Node) : Step (List Result) := do
  match pathText? node with
  | none => return []
  | some word => do
      setWord word
      let c ← get
      let parent := c.parent? node
      let isName := (parent.map Node.commandElements).any fun elements => elements.head?.any (·.same node)
      if isName then filesAndCommands
      else if isCommandOrParameter parent then complete Completion.argumentValues
      else do
        let files ← complete (Completion.fileNames ·)
        if Text.contains word "-" then
          return files ++ (← complete (Completion.commands · { addAmpersand := false }))
        else return files

def stringToken (inner : Step (List Result)) (token : Token) (last : Option Node) :
    Step (List Result) := do
  match last with
  | none => return []
  | some node =>
      match stringParts? node with
      | none => return []
      | some (value, style) =>
          let typed := value.take ((← get).cursor - token.extent.start - 1).toNat
          let access := if style == .doubleQuoted then (variableAccess? typed).or (staticAccess? typed)
            else none
          match access with
          | some part => insideString inner token typed part
          | none => stringAsWord node

/-! Routes. -/

/-- The route of the token under the cursor. Inside a string, `strings` is absent and a string, a
parameter or a comment leads nowhere. -/
def atToken (strings : Option (Token → Option Node → Step (List Result))) (token : Token) :
    Step (List Result) := do
  let c ← get
  let last := c.innermost?
  let inString := strings.isNone
  match token.kind with
  | .variable | .splattedVariable => completeWord token.text Completion.variableNames
  | .multiply | .generic | .identifier => wordToken token inString
  | .parameter => if inString then return [] else parameterToken token last
  | .dot | .colonColon => do
      skipSpan token.text.length
      match memberTarget? (← get) with
      | some target => complete (Completion.members · target (token.kind == .colonColon))
      | none => return []
  | .comment => if inString then return [] else completeWord token.text Completion.history
  | .stringExpandable | .stringLiteral =>
      match strings with
      | some route => route token last
      | none => return []
  | .rBracket =>
      match last.filter (·.kind == .typeExpression) with
      | some type => staticMembersAfter type
      | none => return []
  | .comma =>
      if hasKind .errorExpression last && isCommandOrParameter (last.bind c.parent?) then do
        setSpan (c.replacementIndex + c.replacementLength) 0
        complete Completion.argumentValues
      else return []
  | .number =>
      if hasKind .constant last && isArgument c last then
        completeWord token.text Completion.argumentValues
      else return []
  | .redirection =>
      if hasKind .errorExpression last && hasKind .fileRedirection (last.bind c.parent?) then do
        skipSpan token.text.length
        completeWord [] (Completion.fileNames ·)
      else return []
  | .minus =>
      if isOperatorPlace c token last then Completion.operators []
      else match flagKeywordAtDash? c token with
        | some keyword => do
            setWord token.text
            Completion.statementFlags keyword token.text
        | none => return []
  | .equals | .atParen | .lParen =>
      match last.filter (·.kind == .attribute) with
      | some owner => do
          skipSpan token.text.length
          complete (Completion.attributeArguments · owner)
      | none => return []
  | _ =>
      if token.kind == .keyword || token.hasFlag .keyword then do
        setWord token.text
        filesAndCommands
      else return []

def afterToken : Step (List Result) := do
  let c ← get
  let last := c.innermost?
  let continues := c.tokenBefore.any (·.kind == .lineContinuation)
  let fresh := isLineEmpty c && !continues
  if !fresh && isArgument c last then do
    setWord []
    match last.filter (·.kind == .hashtable) with
    | some hashtable =>
        if hasPendingValue hashtable then return []
        else do
          setSpan c.cursor 0
          complete (Completion.hashtableKeys · hashtable)
    | none => complete Completion.argumentValues
  else do
    let results ← if fresh then keysAtCursor
      else match last.filter (·.kind == .attribute) with
        | some owner =>
            if c.tokenBefore.any (·.kind == .lParen) then complete (Completion.attributeArguments · owner)
            else pure []
        | none => pure []
    if !results.isEmpty then do
      setSpan c.cursor 0
      return results
    else
      let afterRedirection := hasKind .errorExpression last && hasKind .fileRedirection (last.bind c.parent?)
      let afterSwitchFile := last.any fun n => n.kind == .errorStatement && isSwitchFile c n c.tokenBefore
      if afterRedirection || afterSwitchFile then completeWord [] (Completion.fileNames ·)
      else return []

/-- The route of the cursor and what it falls back to. -/
def routeWith (strings : Option (Token → Option Node → Step (List Result))) : Step (List Result) :=
  let route : Step (List Result) := do
    match (← get).tokenAt with
    | some token => do
        setExtent token.extent
        atToken strings token
    | none => if strings.isNone then return [] else afterToken
  orElse route (orElse typeNameAtCursor (orElse keysAtCursor inputAsFile))

def routeInString : Step (List Result) := routeWith none

def route : Step (List Result) := routeWith (some (stringToken routeInString))

def results (c : Context) : Engine (List Result × Context) := route.run c

end TabCompletion.Analysis
