import TabCompletion.Types.Registry
import TabCompletion.Wildcard.Pattern

/-!
The catalog of names that may be typed inside brackets: accelerators, short and full type names and
namespaces, each with the descriptors that complete it. Keys with equally many dots share a bucket,
so a lookup only looks at names of the word's own shape.
-/

namespace TabCompletion

inductive Descriptor where
  | type (fullName : Text) (accelerator : Option Text)
  | genericType (fullName : Text) (arity : Int)
  | nameSpace (name : Text)
  | typeName (fullName : Text) (arity : Int)

def Descriptor.key : Descriptor → Text
  | .type fullName accelerator => Text.lower ("t:" ++ fullName ++ ":" ++ accelerator.getD [])
  | .genericType fullName _ => Text.lower ("g:" ++ fullName)
  | .nameSpace name => Text.lower ("n:" ++ name)
  | .typeName fullName _ => Text.lower ("s:" ++ fullName)

structure CatalogEntry where
  key : Text
  descriptors : List Descriptor

/-- Bucket `n` holds the keys with exactly `n` dots, by their lower-case form. -/
structure Catalog where
  buckets : List (Assoc CatalogEntry)

namespace Catalog

def countDots (t : Text) : Nat := t.countP fun (u : CodeUnit) => u == '.'

def CatalogEntry.add (entry : CatalogEntry) (descriptor : Descriptor) : CatalogEntry :=
  if entry.descriptors.any (·.key == descriptor.key) then entry
  else { entry with descriptors := entry.descriptors ++ [descriptor] }

def addToBucket (bucket : Assoc CatalogEntry) (key : Text) (descriptor : Descriptor) : Assoc CatalogEntry :=
  let lowered := Text.lower key
  let entry := (Assoc.get? bucket lowered).getD { key, descriptors := [] }
  Assoc.set bucket lowered (CatalogEntry.add entry descriptor)

/-- Applies a function to the bucket with the given number, adding empty buckets up to it. -/
def modifyBucket (change : Assoc CatalogEntry → Assoc CatalogEntry) :
    Nat → List (Assoc CatalogEntry) → List (Assoc CatalogEntry)
  | 0, [] => [change []]
  | 0, bucket :: rest => change bucket :: rest
  | n + 1, [] => [] :: modifyBucket change n []
  | n + 1, bucket :: rest => bucket :: modifyBucket change n rest

def add (c : Catalog) (key : Text) (descriptor : Descriptor) : Catalog :=
  if key.isEmpty then c
  else ⟨modifyBucket (addToBucket · key descriptor) (countDots key) c.buckets⟩

def leadingParts (dotted : Text) : List Text :=
  let parts := Text.splitOn '.' dotted
  (List.range parts.length).map fun i => Text.join "." (parts.take (i + 1))

def addNamespaces (c : Catalog) (dotted : Text) : Catalog :=
  if dotted.isEmpty then c
  else (leadingParts dotted).foldl (fun c part => c.add part (.nameSpace part)) c

/-- Adds a described type. A nested generic type has no short name. -/
def addModel (c : Catalog) (model : TypeModel) : Catalog :=
  let (name, arity) := TypeName.splitArity model.fullName
  let descriptor := if 0 < arity then Descriptor.genericType name arity else .type name none
  let c := c.add name descriptor
  let c := if 0 < arity && model.isNested == some true then c
    else c.add (TypeName.shortName name) descriptor
  c.addNamespaces (TypeName.namespaceOf name)

def addName (c : Catalog) (typeName : Text) : Catalog :=
  let (name, arity) := TypeName.splitArity typeName
  let descriptor := Descriptor.typeName name arity
  ((c.add name descriptor).add (TypeName.shortName name) descriptor).addNamespaces
    (TypeName.namespaceOf name)

/-- The catalog of a registry: accelerators, public types, then the remaining known names. -/
def ofRegistry (r : Registry) : Catalog :=
  let visible := r.allTypes.filter (·.isPublic != some false)
  let covered := visible.map fun model => Text.lower model.fullName
  let c := r.accelerators.foldl (fun c (shortForm, fullName) =>
    c.add shortForm (.type fullName (some shortForm))) (Catalog.mk [])
  let c := visible.foldl addModel c
  (r.knownTypeNames.filter fun name => !covered.contains (Text.lower name)).foldl addName c

/-- The key and descriptor pairs whose key matches the word as the start of a pattern, among the
keys with as many dots as the word. -/
def lookup (c : Catalog) (word : Text) : Except Wildcard.PatternError (List (Text × Descriptor)) :=
  match c.buckets[countDots word]? with
  | none => .ok []
  | some bucket => do
      let pattern ← Wildcard.Pattern.compile (if Text.endsWith word "*" then word else word ++ "*")
      return (Assoc.values bucket).flatMap fun entry =>
        if pattern.test entry.key then entry.descriptors.map (entry.key, ·) else []

end Catalog

end TabCompletion
