import TabCompletion.Completion.Context

/-!
Completion of paths. The completed text keeps the directory that was typed, and is escaped and
quoted so that it reads back as the same path.
-/

namespace TabCompletion.Completion

structure PathMatch where
  text : Text
  listItem : Text
  toolTip : Text
  isContainer : Bool

def isSeparator (u : CodeUnit) : Bool := u == '/' || u == '\\'

def directoryLength (path : Text) : Nat :=
  ((Text.findLastIndex? isSeparator path).map (· + 1)).getD 0

/-- The extension of a name, dot included; a leading dot starts none. -/
def extensionOf (name : Text) : Text :=
  match Text.lastIndexOf? "." name with
  | some (dot + 1) => Text.lower (name.drop (dot + 1))
  | _ => []

def networkShare? (word : Text) : Option (Text × Text) :=
  if Text.startsWith word "\\\\" then
    let rest := word.drop 2
    let server := rest.takeWhile fun u => !isSeparator u
    let after := rest.dropWhile fun u => !isSeparator u
    if !server.isEmpty && Text.startsWith after "\\" && !(after.drop 1).any isSeparator then
      some (server, after.drop 1)
    else none
  else none

/-- The shares that the pattern takes, until the session is stopped. -/
def shareMatches (c : Context) (pattern : Wildcard.Pattern) (server : Text) :
    List Text → Engine (List PathMatch)
  | [] => return []
  | share :: rest => do
      if ← Engine.isStopped c.session then return []
      else do
        let others ← shareMatches c pattern server rest
        if (c.options.ignoreHiddenShares && Text.endsWith share "$") || !pattern.test share then
          return others
        else
          let path := "\\\\" ++ server ++ "\\" ++ share
          return { text := path, listItem := share, toolTip := path, isContainer := true } :: others

def matchShares (c : Context) (server started : Text) : Engine (List PathMatch) := do
  match (← read).paths.shares server with
  | none => return []
  | some shares => do
      let pattern ← Engine.pattern (started ++ "*")
      return sortIgnoringCase (·.toolTip) (← shareMatches c pattern server shares)

structure PathWord where
  container : Text
  leaf : Text
  typedDirectory : Text
  isRooted : Bool

/-- Takes a word apart. A tilde stands for the home directory, alone for what is in it. -/
def PathWord.of (paths : PathProvider) (word : Text) : PathWord :=
  let isTilde := word == Text.ofString "~"
  let homeRooted := isTilde || Text.startsWith word "~/" || Text.startsWith word "~\\"
  let expanded := if homeRooted then paths.home ++ word.drop 1 else word
  let searched := if isTilde then expanded ++ [paths.separator] else expanded
  let typed := if isTilde then word ++ [paths.separator] else word
  let length := directoryLength searched
  let directory := searched.take length
  { container :=
      if length = 0 then paths.currentLocation
      else if paths.isAbsolute directory then directory
      else paths.join paths.currentLocation directory
    leaf := searched.drop length
    typedDirectory := if length = 0 then [] else typed.take (directoryLength typed)
    isRooted := homeRooted || paths.isAbsolute searched }

structure PathFilter where
  containerOnly : Bool := false
  /-- Lower-case extensions, dot included; containers are always wanted. -/
  extensions : Option (List Text) := none

def PathFilter.accepts (f : PathFilter) (pattern : Wildcard.Pattern) (item : PathItem) : Bool :=
  pattern.test item.name && !(f.containerOnly && !item.isContainer)
    && (item.isContainer || f.extensions.all fun wanted => wanted.contains (extensionOf item.name))

/-- The accepted items of a container; hidden ones only when nothing else is found or a dot is
typed. -/
def acceptedItems (paths : PathProvider) (container leaf : Text) (accepts : PathItem → Bool) : List PathItem :=
  let shown := ((paths.childItems container false).getD []).filter accepts
  if shown.isEmpty || Text.startsWith leaf "." then
    let hidden := ((paths.childItems container true).getD []).filter fun item =>
      !shown.any (·.path == item.path) && accepts item
    shown ++ hidden
  else shown

def matchItems (c : Context) (word : Text) (wanted : PathFilter) : Engine (List PathMatch) := do
  let paths := (← read).paths
  let parts := PathWord.of paths word
  let pattern ← if c.options.literalPaths then Engine.pattern (Wildcard.escape parts.leaf ++ "*")
    else Engine.pattern (parts.leaf ++ "*")
  let items := acceptedItems paths parts.container parts.leaf (wanted.accepts pattern)
  let useAbsolute := c.options.relativePaths == some false
  let head := if !parts.typedDirectory.isEmpty || parts.isRooted then parts.typedDirectory
    else "." ++ [paths.separator]
  return (sortIgnoringCase (·.path) items).map fun item =>
    { text := if useAbsolute then item.path else head ++ item.name
      listItem := item.name, toolTip := item.path, isContainer := item.isContainer }

/-- The result of a match, in the quote that the word opened or in quotes where they are needed. -/
def PathMatch.toResult (quote : Quoting.Quote) (literal : Bool) (m : PathMatch) : Result :=
  let escaped := if literal then m.text else Quoting.escapeBrackets m.text
  let text := match quote with
    | .none => if Quoting.needed m.text (!literal) then Quoting.Quote.single.wrap escaped else escaped
    | _ => quote.wrap escaped
  Result.of text (if m.isContainer then .providerContainer else .providerItem) m.listItem m.toolTip

def fileNames (c : Context) (wanted : PathFilter := {}) : Engine (List Result) := do
  let (quote, word) := Quoting.strip c.word
  let found ← match networkShare? word with
    | some (server, started) => matchShares c server started
    | none => matchItems c word wanted
  return found.map (PathMatch.toResult quote c.options.literalPaths)

def literalFileNames (c : Context) (wanted : PathFilter := {}) : Engine (List Result) :=
  fileNames { c with options := { c.options with literalPaths := true } } wanted

end TabCompletion.Completion
