import TabCompletion.Assoc

/-!
Documents of an editor. A position is a line and a unit of that line; lines end at a line feed, a
carriage return or both. An edit moves the starts of the lines after it and leaves those before it.
-/

namespace TabCompletion.Editor

structure Position where
  line : Int
  character : Int
  deriving DecidableEq

structure Range where
  start : Position
  stop : Position
  deriving DecidableEq

def Range.ordered (r : Range) : Range :=
  if r.stop.line < r.start.line || (r.start.line == r.stop.line && r.stop.character < r.start.character) then
    ⟨r.stop, r.start⟩
  else r

def isLineBreak (u : CodeUnit) : Bool := u == '\n' || u == '\r'

def lineStartsAfter (offset : Nat) : Text → List Nat
  | [] => []
  | [u] => if isLineBreak u then [offset + 1] else []
  | u :: v :: rest =>
      if u == '\r' && v == '\n' then (offset + 2) :: lineStartsAfter (offset + 2) rest
      else if isLineBreak u then (offset + 1) :: lineStartsAfter (offset + 1) (v :: rest)
      else lineStartsAfter (offset + 1) (v :: rest)

structure Document where
  text : Text
  lineStarts : List Nat

namespace Document

def ofText (text : Text) : Document := { text, lineStarts := 0 :: lineStartsAfter 0 text }

/-- The offset moved back over line breaks, at most to the start of the line. -/
def beforeBreak (d : Document) (lineStart : Nat) : Nat → Nat
  | 0 => 0
  | offset + 1 =>
      if lineStart ≤ offset && (d.text[offset]?).any isLineBreak then d.beforeBreak lineStart offset
      else offset + 1

def positionAt (d : Document) (offset : Int) : Position :=
  let place := min offset.toNat d.text.length
  let line := (d.lineStarts.takeWhile (· ≤ place)).length - 1
  let lineStart := (d.lineStarts[line]?).getD 0
  { line, character := (d.beforeBreak lineStart place : Int) - lineStart }

/-- The offset of a position; a position behind the end of its line means that end. -/
def offsetAt (d : Document) (p : Position) : Nat :=
  if p.line < 0 then 0
  else
    match d.lineStarts[p.line.toNat]? with
    | none => d.text.length
    | some lineStart =>
        if p.character ≤ 0 then lineStart
        else
          let next := (d.lineStarts[p.line.toNat + 1]?).getD d.text.length
          d.beforeBreak lineStart (min (lineStart + p.character.toNat) next)

def splice (d : Document) (range : Range) (text : Text) : Document :=
  let range := range.ordered
  let start := d.offsetAt range.start
  let stop := d.offsetAt range.stop
  let later := d.lineStarts.drop (range.stop.line.toNat + 1)
  { text := d.text.take start ++ text ++ d.text.drop stop
    lineStarts := d.lineStarts.take (range.start.line.toNat + 1) ++ lineStartsAfter start text
      ++ later.map fun offset => offset + text.length - (stop - start) }

end Document

inductive ChangeError where
  /-- The change does not say which version it leads to. -/
  | noVersion
  /-- The change is neither an edit nor a new text. -/
  | unknownShape
  /-- The range of an edit lacks an end. -/
  | brokenRange
  deriving DecidableEq

inductive Change where
  | splice (range : Range) (text : Text)
  | replace (text : Text)
  | unreadable (error : ChangeError)

/-- Applies changes one after the other. Those before an unreadable one stay applied. -/
def Document.apply (d : Document) : List Change → Document × Option ChangeError
  | [] => (d, none)
  | .splice range text :: rest => (d.splice range text).apply rest
  | .replace text :: rest => (Document.ofText text).apply rest
  | .unreadable error :: _ => (d, some error)

/-! Open documents. -/

abbrev Documents := Assoc Document

namespace Documents

def openText (ds : Documents) (name text : Text) : Documents := Assoc.set ds name (Document.ofText text)

def close (ds : Documents) (name : Text) : Documents := ds.filter fun entry => entry.1 != name

/-- Changes a document. Without changes nothing is asked for; a document that is not open stays
unknown. -/
def change (ds : Documents) (name : Text) (hasVersion : Bool) (changes : List Change) :
    Documents × Option ChangeError :=
  if changes.isEmpty then (ds, none)
  else if !hasVersion then (ds, some .noVersion)
  else
    match Assoc.get? ds name with
    | none => (ds, none)
    | some document =>
        let (changed, error) := document.apply changes
        (Assoc.set ds name changed, error)

end Documents

end TabCompletion.Editor
