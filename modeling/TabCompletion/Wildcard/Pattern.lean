import TabCompletion.Wildcard.Matcher

/-!
Shell wildcard patterns: `*`, `?`, bracketed classes and backtick escapes. A pattern is first
written in glob notation, where a backslash escapes and a slash is replaced by a stand-in on both
sides of a match, and the glob is compiled. Main entry points: `Pattern.compile`, `Pattern.test`,
`escape` and `hasWildcards`.
-/

namespace TabCompletion.Wildcard

def slashStandIn : CodeUnit := 0xE000

/-- A pattern in glob notation. A backtick makes the next unit ordinary; a backtick at the end is
itself ordinary. -/
def toGlob : Text → Text
  | [] => []
  | [u] => plain u
  | u :: v :: rest =>
      if u == '\x60' then escaped v ++ toGlob rest else plain u ++ toGlob (v :: rest)
where
  plain (u : CodeUnit) : Text :=
    if u == '/' then [slashStandIn] else if u == '\\' then "\\\\" else [u]
  escaped (u : CodeUnit) : Text :=
    if u == '/' then [slashStandIn] else if u == '\\' then "\\\\" else ['\\', u]

inductive PatternError where
  | tooLong
  | uncompilable
  deriving DecidableEq, Repr

def maxGlobLength : Nat := 65536

/-- What compiling has seen so far: alternatives and pieces, last first; whether a wildcard was
seen; whether a class works on code points; whether a unit was escaped that may only be escaped
when no class does. -/
structure Compilation where
  finished : List (List Piece) := []
  pieces : List Piece := []
  wild : Bool := false
  byPoints : Bool := false
  unitEscape : Bool := false
  invalid : Bool := false

def Compilation.push (state : Compilation) (piece : Piece) : Compilation :=
  { state with pieces := piece :: state.pieces }

def isLooseEscape (u : CodeUnit) : Bool := u == '-' || u == ',' || u == '#' || Text.isSpace u

/-- Compiles glob text. An escaped bar separates alternatives. -/
def Compilation.run (fuel : Nat) (state : Compilation) (t : Text) : Compilation :=
  match fuel, t with
  | 0, _ | _, [] => state
  | fuel + 1, u :: rest =>
      if u == '\\' then
        match rest with
        | [] => state.push (.literal u.toNat)
        | v :: rest =>
            if v == '|' then
              run fuel { state with finished := state.pieces.reverse :: state.finished, pieces := [] } rest
            else
              run fuel ({ state with unitEscape := state.unitEscape || v == '!' }.push (.literal v.toNat)) rest
      else if u == '[' then
        match readClass rest with
        | .unclosed => run fuel (state.push (.literal u.toNat)) rest
        | .never => { state with wild := true }.push .never
        | .invalid => { state with wild := true, invalid := true }
        | .literal v rest =>
            run fuel ({ state with unitEscape := state.unitEscape || isLooseEscape v }.push
              (.literal v.toNat)) rest
        | .set set byPoints rest =>
            run fuel ({ state with wild := true, byPoints := state.byPoints || byPoints }.push
              (.oneOf set)) rest
      else if u == '*' then run fuel ({ state with wild := true }.push .anyMany) rest
      else if u == '?' then run fuel ({ state with wild := true }.push .anyOne) rest
      else
        run fuel ({ state with unitEscape := state.unitEscape || isLooseEscape u }.push
          (.literal u.toNat)) rest

def literalText (alternatives : List (List Piece)) : Text :=
  Text.join "|" (alternatives.map fun pieces => pieces.flatMap fun piece =>
    match piece with
    | .literal point => Text.unitsOfPoint point
    | _ => [])

/-- Opens alternatives: only the first starts where the text starts, and only the last ends where
it ends. -/
def openEnds : List (List Piece) → List (List Piece)
  | [] => []
  | [only] => [only]
  | first :: rest => (first ++ [.anyMany]) :: openLater rest
where
  openLater : List (List Piece) → List (List Piece)
    | [] => []
    | [last] => [.anyMany :: last]
    | middle :: rest => (.anyMany :: middle ++ [.anyMany]) :: openLater rest

def Piece.isBracket : Piece → Bool
  | .anyOne | .anyMany => true
  | .oneOf set => set.parts.length == 1
  | _ => false

/-- Whether a pattern starts with a bracket expression after at most two dots, so that it could
match a dot text. -/
def startsOpen : List Piece → Bool
  | p :: rest =>
      p.isBracket || (isDot p && match rest with
        | q :: more => q.isBracket || (isDot q && match more with
            | r :: _ => r.isBracket
            | [] => false)
        | [] => false)
  | [] => false
where
  isDot : Piece → Bool
    | .literal point => point == 0x2E
    | _ => false

/-- Units that keep a pattern from having a matcher of its own. -/
def isGlobSpecial (u : CodeUnit) : Bool :=
  u == '+' || u == '@' || u == '!' || u == '?' || u == '*' || u == '[' || u == '('

/-- The matcher of a simple pattern: stars or question marks and then plain text, which is taken
as it stands in glob notation, or a dot beside stars. -/
def simpleMatcher? (glob : Text) (ignoreCase : Bool) : Option Matcher :=
  let isStar (u : CodeUnit) : Bool := u == '*'
  let isMark (u : CodeUnit) : Bool := u == '?'
  let stars := glob.takeWhile isStar
  let afterStars := glob.dropWhile isStar
  let marks := glob.takeWhile isMark
  let afterMarks := glob.dropWhile isMark
  let allStars (t : Text) : Bool := !t.isEmpty && t.all isStar
  if !stars.isEmpty && afterStars.isEmpty then some .anything
  else if !stars.isEmpty && !afterStars.any isGlobSpecial then some (.ending afterStars ignoreCase)
  else if !marks.isEmpty && !afterMarks.any isGlobSpecial then
    some (.sized glob.length afterMarks ignoreCase)
  else if !stars.isEmpty && Text.startsWith afterStars "." && allStars (afterStars.drop 1) then
    some .dotted
  else if Text.startsWith glob "." && allStars (glob.drop 1) then some .dotLed
  else none

/-- Compiles a glob. Without wildcards, and without letters when case is ignored, it matches one
text only. -/
def compileGlob (glob : Text) (caseSensitive : Bool) : Except PatternError Matcher :=
  if maxGlobLength < glob.length then .error .tooLong
  else if glob.isEmpty then .ok (.exactly [])
  else
    let glob : Text := if glob == Text.ofString "**" then "*" else glob
    let state := Compilation.run (glob.length + 1) {} glob
    let alternatives := (state.pieces.reverse :: state.finished).reverse
    let cased := !caseSensitive && Text.upper glob != Text.lower glob
    if !state.wild && !cased then .ok (.exactly (literalText alternatives))
    else if state.invalid || (state.byPoints && state.unitEscape) then .error .uncompilable
    else match simpleMatcher? glob (!caseSensitive) with
      | some simple => .ok simple
      | none =>
          let comparison : Comparison :=
            if caseSensitive then .exact state.byPoints else .ignoringCase state.byPoints
          let guarded := (alternatives.head?.map startsOpen).getD false
            && !(glob == Text.ofString "." || glob == Text.ofString "..")
          .ok (.shape (openEnds alternatives) comparison guarded)

structure Pattern where
  source : Text
  matcher : Matcher

namespace Pattern

def compile (source : Text) (caseSensitive : Bool := false) : Except PatternError Pattern :=
  (compileGlob (toGlob source) caseSensitive).map fun matcher => ⟨source, matcher⟩

def test (p : Pattern) (t : Text) : Bool :=
  p.matcher.test (t.map fun (u : CodeUnit) => if u == '/' then slashStandIn else u)

end Pattern

def isWildcard (u : CodeUnit) : Bool := u == '*' || u == '?' || u == '[' || u == ']'

def hasWildcards : Text → Bool
  | [] => false
  | [u] => isWildcard u
  | u :: v :: rest => if u == '\x60' then hasWildcards rest else isWildcard u || hasWildcards (v :: rest)

def escape (t : Text) : Text :=
  t.flatMap fun (u : CodeUnit) => if isWildcard u || u == '\x60' then ['\x60', u] else [u]

def Pattern.forHead (head : Text) : Except PatternError Pattern := compile (escape head ++ "*")

end TabCompletion.Wildcard
