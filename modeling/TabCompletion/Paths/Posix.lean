import TabCompletion.Assoc
import TabCompletion.Paths.Provider

/-!
Paths of a file system with one root, whose parts are divided by slashes, and the listing of its
directories. Links are followed; a link that leads nowhere is listed, but is no container.
-/

namespace TabCompletion.Posix

def separator : CodeUnit := '/'

def isAbsolute (path : Text) : Bool :=
  match path with
  | u :: v :: _ => u == separator || (Text.isAsciiLetter u && v == ':')
  | [u] => u == separator
  | [] => false

/-! Normal form. -/

def here : Text := "."

def above : Text := ".."

/-- Puts a part on the parts before it, last first. Above the root there is only the root; above a
relative path the double dots are kept. -/
def pushPart (rooted : Bool) (parts : List Text) (part : Text) : List Text :=
  if part.isEmpty || part == here then parts
  else if part == above then
    match parts with
    | top :: rest => if top == above then above :: parts else rest
    | [] => if rooted then [] else [above]
  else part :: parts

def parts (rooted : Bool) (path : Text) : List Text :=
  ((Text.splitOn separator path).foldl (pushPart rooted) []).reverse

/-- The path with its dots resolved and repeated slashes removed. A slash at the end stays. -/
def normalize (path : Text) : Text :=
  let rooted := path.head? == some separator
  let leading : Text := if rooted then "/" else []
  let trailing : Text := if path.getLast? == some separator then "/" else []
  match parts rooted path with
  | [] => if rooted then leading else here ++ trailing
  | found => leading ++ Text.join "/" found ++ trailing

def join (parent child : Text) : Text :=
  normalize (Text.join "/" ([parent, child].filter (!·.isEmpty)))

/-! File trees. -/

inductive FileKind where
  | file
  | directory
  | link (target : Text)
  deriving DecidableEq

abbrev FileTree := List (List Text × FileKind)

namespace FileTree

def put (tree : FileTree) (path : List Text) (kind : FileKind) : FileTree :=
  (tree.filter fun entry => entry.1 != path) ++ [(path, kind)]

def makeDirectories (tree : FileTree) (path : List Text) : FileTree :=
  (List.range path.length).foldl (fun tree i =>
    let directory := path.take (i + 1)
    if (List.lookup directory tree).isSome then tree else put tree directory .directory) tree

def add (tree : FileTree) (path : Text) : FileTree :=
  let found := parts true path
  if path.getLast? == some separator then tree.makeDirectories found
  else (tree.makeDirectories found.dropLast).put found .file

def addLink (tree : FileTree) (path target : Text) : FileTree :=
  let found := parts true path
  (tree.makeDirectories found.dropLast).put found (.link target)

def build (paths : List Text) (links : List (Text × Text)) : FileTree :=
  links.foldl (fun tree (path, target) => tree.addLink path target) (paths.foldl add [])

/-- Follows the remaining parts from a directory; `fuel` bounds the steps, so that links in a circle
lead nowhere. A link to an absolute path leads out of the tree. -/
def follow (tree : FileTree) : Nat → List Text → List Text → Option (List Text)
  | 0, _, _ => none
  | _, reached, [] => some reached
  | fuel + 1, reached, part :: rest =>
      if part.isEmpty || part == here then follow tree fuel reached rest
      else if part == above then follow tree fuel reached.dropLast rest
      else
        match List.lookup (reached ++ [part]) tree with
        | none => none
        | some .directory => follow tree fuel (reached ++ [part]) rest
        | some .file => if rest.isEmpty then some (reached ++ [part]) else none
        | some (.link target) =>
            if target.head? == some separator then none
            else follow tree fuel reached (Text.splitOn separator target ++ rest)

def followLimit : Nat := 4096

def resolve? (tree : FileTree) (path : List Text) : Option (List Text) :=
  tree.follow followLimit [] path

def leadsToDirectory (tree : FileTree) (path : List Text) : Bool :=
  match tree.resolve? path with
  | some [] => true
  | some found => List.lookup found tree == some .directory
  | none => false

def namesIn (tree : FileTree) (directory : List Text) : List Text :=
  tree.filterMap fun (path, _) =>
    match path.getLast? with
    | some name => if path.dropLast == directory then some name else none
    | none => none

def childItems (tree : FileTree) (container : Text) (includeHidden : Bool) : Option (List PathItem) :=
  let asked := parts true container
  match tree.resolve? asked with
  | none => none
  | some directory =>
      if tree.leadsToDirectory asked then
        let names := (tree.namesIn directory).mergeSort fun a b => Text.compare a b != .gt
        some ((names.map fun name =>
          { name, path := join ("/" ++ container) name
            isContainer := tree.leadsToDirectory (directory ++ [name])
            isHidden := Text.startsWith name "." : PathItem }).filter fun item =>
          includeHidden || !item.isHidden)
      else none

def provider (tree : FileTree) (currentLocation home : Text) : PathProvider :=
  { separator, currentLocation, home, isAbsolute, join
    childItems := tree.childItems
    shares := fun _ => some [] }

end FileTree

end TabCompletion.Posix
