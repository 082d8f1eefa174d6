import TabCompletion.Editor.Document
import TabCompletion.Engine.Complete

/-!
Completions as the editor lists them. Every item replaces the same range, and the sort texts keep
the order of the engine.
-/

namespace TabCompletion.Editor

inductive ItemKind where
  | text | method | function | field | variable | type | container | property | value | file
  | reference | folder
  deriving DecidableEq

def ItemKind.code : ItemKind → Nat
  | .text => 1
  | .method => 2
  | .function => 3
  | .field => 5
  | .variable => 6
  | .type => 7
  | .container => 9
  | .property => 10
  | .value => 12
  | .file => 17
  | .reference => 18
  | .folder => 19

def ItemKind.ofResult : ResultKind → ItemKind
  | .plainText => .text
  | .history => .reference
  | .command => .function
  | .providerItem => .file
  | .providerContainer => .folder
  | .property => .property
  | .method => .method
  | .parameterName => .field
  | .parameterValue => .value
  | .variable => .variable
  | .nameSpace => .container
  | .type => .type

structure Item where
  label : Text
  kind : ItemKind
  detail : Text
  sortText : Text
  filterText : Text
  range : Range
  newText : Text

/-- The place of a result among `count` results, with zeros in front up to a common width. -/
def sortText (count index : Nat) : Text :=
  Text.padLeft (Text.ofNat index) (Text.ofNat count).length '0'

def replacedRange (completion : Engine.InputCompletion) (d : Document) : Range :=
  { start := d.positionAt completion.index
    stop := d.positionAt (completion.index + completion.length) }

def items (completion : Engine.InputCompletion) (d : Document) : List Item :=
  completion.results.zipIdx.map fun (r, index) =>
    { label := r.listItem, kind := .ofResult r.kind, detail := r.toolTip
      sortText := sortText completion.results.length index
      filterText := r.text, range := replacedRange completion d, newText := r.text }

end TabCompletion.Editor
