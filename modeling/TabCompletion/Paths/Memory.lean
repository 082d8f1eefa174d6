import TabCompletion.Assoc
import TabCompletion.Paths.Provider

/-!
A path provider over a list of paths. A path that ends in a slash is a container, and containers
above a path are made as needed; a name that starts with a dot is hidden.
-/

namespace TabCompletion.MemoryPaths

/-- The parts of a path with empty parts and dots removed and double dots resolved, last first. -/
def partsReversed (path : Text) : List Text :=
  (Text.splitOn '/' path).foldl (fun parts part =>
    if part.isEmpty || part == Text.ofString "." then parts
    else if part == Text.ofString ".." then parts.drop 1
    else part :: parts) []

def normalize (path : Text) : Text := "/" ++ Text.join "/" (partsReversed path).reverse

def parentOf (path : Text) : Text :=
  normalize (path.take ((Text.lastIndexOf? "/" path).getD 0))

def nameOf (path : Text) : Text := path.drop (((Text.lastIndexOf? "/" path).map (· + 1)).getD 0)

abbrev Tree := Assoc (List PathItem)

def Tree.holds (tree : Tree) (path : Text) : Bool :=
  ((Assoc.get? tree (parentOf path)).getD []).any (·.path == path)

/-- Puts an item into the container above it, if that is a container. -/
def Tree.put (tree : Tree) (path : Text) (isContainer : Bool) : Tree :=
  let parent := parentOf path
  let name := nameOf path
  let item : PathItem := { name, path, isContainer, isHidden := Text.startsWith name "." }
  let tree := match Assoc.get? tree parent with
    | some items => Assoc.set tree parent (items ++ [item])
    | none => tree
  if isContainer && !Assoc.has tree path then Assoc.set tree path [] else tree

/-- Adds a normalized path after the containers above it; `fuel` bounds their number. -/
def Tree.addWithin : Nat → Tree → Text → Bool → Tree
  | 0, tree, _, _ => tree
  | fuel + 1, tree, path, isContainer =>
      if path == Text.ofString "/" || tree.holds path then tree
      else (addWithin fuel tree (parentOf path) true).put path isContainer

def Tree.add (tree : Tree) (path : Text) : Tree :=
  let normalized := normalize path
  addWithin (normalized.length + 1) tree normalized (Text.endsWith path "/")

def Tree.ofPaths (paths : List Text) : Tree := paths.foldl Tree.add [("/", [])]

def provider (paths : List Text) (currentLocation home : Text) (shares : Assoc (List Text)) :
    PathProvider :=
  let tree := Tree.ofPaths paths
  { separator := '/'
    currentLocation, home
    isAbsolute := fun path => Text.startsWith path "/" || Text.startsWith path "\\\\"
    join := fun parent child => normalize (parent ++ "/" ++ child)
    childItems := fun container includeHidden =>
      (Assoc.get? tree (normalize container)).map fun items =>
        items.filter fun item => includeHidden || !item.isHidden
    shares := fun server => Assoc.get? shares (Text.lower server) }

end TabCompletion.MemoryPaths
