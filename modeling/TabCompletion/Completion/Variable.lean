import TabCompletion.Binding.Elements
import TabCompletion.Completion.Context
import TabCompletion.Language

/-!
Completion of variables: those that the script sets before the cursor, those of the session, the
items of a drive, the variables of the shell itself, and the scopes and drives that may qualify a
name.
-/

namespace TabCompletion.Completion

/-- A variable as typed: its sigil, whether it stands in braces, the qualifier with its colon, and
the name. -/
structure VariableWord where
  sigil : CodeUnit
  braced : Bool
  qualifier : Text
  name : Text

def VariableWord.ofText (word : Text) : VariableWord :=
  let splatted := Text.startsWith word "@"
  let rest := if splatted || Text.startsWith word "$" then word.drop 1 else word
  let braced := Text.startsWith rest "\x7b"
  let inner := if braced then
      let body := rest.drop 1
      if Text.endsWith body "\x7d" then body.dropLast else body
    else rest
  let (qualifier, name) := match Text.indexOf? ":" inner with
    | some colon => (inner.take (colon + 1), inner.drop (colon + 1))
    | none => ([], inner)
  { sigil := if splatted then '@' else '$', braced, qualifier, name }

def isBareName (name : Text) : Bool :=
  name == Text.ofString "$" || name == Text.ofString "^" ||
    (!name.isEmpty && (Text.points name).all fun p =>
      p == 0x5F || p == 0x3F || Text.Category.holds Text.Category.letter p
        || Text.Category.holds Text.Category.number p)

def VariableWord.write (w : VariableWord) (qualifier name : Text) : Text :=
  let path := qualifier ++ name
  if w.braced || (!name.isEmpty && !isBareName name) then w.sigil :: ("\x7b" ++ path ++ "\x7d")
  else w.sigil :: path

structure VariableCandidate where
  name : Text
  toolTip : Text

/-! Variables of the script. -/

def variableNamingParameters : List String := ["pipelinevariable", "pv", "outvariable", "ov",
  "errorvariable", "ev", "warningvariable", "wv", "informationvariable", "iv"]

/-- The names that the arguments of a command give to variables; a leading plus is not part of the
name. -/
def namedVariables : List Node → List Text
  | [] => []
  | element :: rest =>
      let here := match element.parameterParts? with
        | some (name, argument) =>
            if variableNamingParameters.any fun p => Text.ofString p == Text.lower name then
              match ((argument.or (rest.head?.filter (!·.isParameter))).bind Node.literalText?).filter
                  (!·.isEmpty) with
              | some value => [if Text.startsWith value "+" then value.drop 1 else value]
              | none => []
            else []
        | none => []
      here ++ namedVariables rest

def scriptVariable (path : Text) (typeName : Option Text := none) : List VariableCandidate :=
  let name := match Text.indexOf? ":" path with
    | some colon => path.drop (colon + 1)
    | none => path
  if name.isEmpty then []
  else [{ name, toolTip := match typeName with
            | some t => "[" ++ t ++ "]$" ++ name
            | none => name }]

/-- The variables that a node itself sets. A variable that the cursor touches is still being
typed. -/
def ownVariables (cursor : Int) (n : Node) : List VariableCandidate :=
  let isTyped (node : Node) : Bool := node.extent.touches cursor
  match n.form with
  | .assignment left _ _ =>
      match left.variablePath?, left.conversion? with
      | some path, _ => if isTyped left then [] else scriptVariable path
      | none, some (typeName, child) =>
          match child.variablePath? with
          | some path => if isTyped child then [] else scriptVariable path (some typeName)
          | none => []
      | none, none => []
  | .parameter attributes name _ =>
      if isTyped name then []
      else scriptVariable (name.variablePath?.getD []) (Node.constraintAmong? attributes)
  | .forEachStatement loopVariable _ _ =>
      if isTyped loopVariable then [] else scriptVariable (loopVariable.variablePath?.getD [])
  | .command elements _ _ => (namedVariables elements).flatMap fun name => scriptVariable name
  | _ => []

def isClosed (cursor : Int) (n : Node) : Bool :=
  (n.kind == .scriptBlock || n.kind == .functionDefinition) && !n.extent.touches cursor

/-- The variables that a tree sets before the cursor, in scopes that hold the cursor. -/
def variablesWithin (cursor : Int) (n : Node) : List VariableCandidate :=
  if cursor ≤ n.start then []
  else ownVariables cursor n ++ n.children.attach.flatMap fun ⟨child, _⟩ =>
    if isClosed cursor child then [] else variablesWithin cursor child
termination_by sizeOf n
decreasing_by exact Node.sizeOf_child_lt ‹_›

/-! Variables of the session. -/

def sessionVariables (c : Context) (name : Text) (scope : Option Text) : Engine (List VariableCandidate) := do
  let inScope : List (Text × QueryArgument) := scope.toList.map fun s => ("Scope", .text s)
  let values ← Engine.query c.session
    { command := "Get-Variable", parameters := ("Name", .text (name ++ "*")) :: inScope }
  return values.filterMap fun v => ((v.textProperty? "Name").filter (!·.isEmpty)).map fun found =>
    { name := found
      toolTip := match ((v.property "Value").typeNames.head?).filter (!·.isEmpty) with
        | some typeName => "[" ++ typeName ++ "]$" ++ found
        | none => found }

def driveItems (c : Context) (qualifier : Text) : Engine (List VariableCandidate) := do
  let values ← Engine.query c.session
    { command := "Get-ChildItem", parameters := [("Path", .text qualifier)] }
  return values.filterMap fun v => ((v.textProperty? "Name").filter (!·.isEmpty)).map fun found =>
    { name := found, toolTip := (v.textProperty? "Value").getD found }

/-! Completion. -/

def VariableWord.result (w : VariableWord) (qualifier : Text) (candidate : VariableCandidate) : Result :=
  Result.of (w.write qualifier candidate.name) .variable (qualifier ++ candidate.name) candidate.toolTip

def VariableWord.qualifiers (w : VariableWord) (pattern : Wildcard.Pattern) : List Result :=
  (((Language.scopes ++ Language.drives).map Text.ofString).filter pattern.test).map fun (head : Text) =>
    let text : Text := head ++ Text.ofString ":"
    Result.of (w.sigil :: text) .variable text text

def variableNames (c : Context) : Engine (List Result) := do
  let word := VariableWord.ofText c.word
  let pattern ← Engine.pattern (word.name ++ "*")
  let qualifierName := Text.lower word.qualifier.dropLast
  let isScoped := !word.qualifier.isEmpty &&
    ("using" :: Language.scopes).any fun scope => Text.ofString scope == qualifierName
  let candidates ← if word.qualifier.isEmpty || isScoped then do
      let ofScript := ((c.root?).map (variablesWithin c.cursor)).getD []
      let scope := if isScoped && qualifierName != Text.ofString "using" then some qualifierName else none
      let ofSession ← sessionVariables c word.name scope
      pure (ofScript ++ ofSession)
    else driveItems c word.qualifier
  let found := (candidates.filter fun v => pattern.test v.name).map (word.result word.qualifier)
  let extra := if word.qualifier.isEmpty then
      let special := (Language.specialVariables.map Text.ofString).filter pattern.test
      special.map (fun name => word.result [] { name, toolTip := name }) ++ word.qualifiers pattern
    else []
  return sortExactFirst (word.qualifier ++ word.name) (·.listItem) (Result.dedupe (found ++ extra))

end TabCompletion.Completion
