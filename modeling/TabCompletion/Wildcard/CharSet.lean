import TabCompletion.Text.Case

/-!
Bracketed character classes of glob notation. A class lists single units, ranges and named
classes, and may be complemented. Reading a class consumes glob text from just after the opening
bracket; the result is a set, one literal unit, a class that nothing can match, or nothing at all
when the bracket is never closed.
-/

namespace TabCompletion.Wildcard

/-- How two units count as the same letter. Named classes work on code points, all else on
units. -/
inductive Comparison where
  | exact (byPoints : Bool)
  | ignoringCase (byPoints : Bool)

inductive Member where
  | range (low high : Nat)
  | category (table : List (Nat × Nat × Nat))

def Member.holds (point : Nat) : Member → Bool
  | .range low high => low ≤ point && point ≤ high
  | .category table => Text.Category.holds table point

def Comparison.variants (c : Comparison) (point : Nat) : List Nat :=
  match c with
  | .exact _ => [point]
  | .ignoringCase false =>
      let image := Text.unitClass point
      point :: (Text.preimages Text.upperRuns image).filter (Text.unitClass · == image)
  | .ignoringCase true => point :: Text.preimages Text.foldRuns (Text.fold point)

def Comparison.same (c : Comparison) (a b : Nat) : Bool :=
  match c with
  | .exact _ => a == b
  | .ignoringCase false => Text.unitClass a == Text.unitClass b
  | .ignoringCase true => Text.fold a == Text.fold b

def holdsAny (c : Comparison) (members : List Member) (point : Nat) : Bool :=
  (c.variants point).any fun variant => members.any (Member.holds variant)

/-- A class is a union of parts; a part is a list of members, taken as it is or complemented. -/
structure CharSet where
  parts : List (Bool × List Member)

def CharSet.test (set : CharSet) (c : Comparison) (point : Nat) : Bool :=
  set.parts.any fun (complemented, members) => holdsAny c members point != complemented

/-! Named classes. -/

/-- A class written `[:name:]`: its members, whether they are left out rather than listed, and
whether it works on code points. -/
structure NamedClass where
  name : Text
  members : List Member
  excludes : Bool
  byPoints : Bool

def single (u : Nat) : Member := .range u u

open Text.Category in
def namedClasses : List NamedClass := [
  ⟨"[:alnum:]", [.category letter, .category letterNumber, .category decimalDigit], false, true⟩,
  ⟨"[:alpha:]", [.category letter, .category letterNumber], false, true⟩,
  ⟨"[:ascii:]", [.range 0x00 0x7F], false, false⟩,
  ⟨"[:blank:]", [.category spaceSeparator, single 0x09], false, true⟩,
  ⟨"[:cntrl:]", [.category control], false, true⟩,
  ⟨"[:digit:]", [.category decimalDigit], false, true⟩,
  ⟨"[:graph:]", [.category separator, .category other], true, true⟩,
  ⟨"[:lower:]", [.category lowerLetter], false, true⟩,
  ⟨"[:print:]", [.category other], false, true⟩,
  ⟨"[:punct:]", [.category punctuation], false, true⟩,
  ⟨"[:space:]", [.category separator, single 0x09, single 0x0D, single 0x0A, single 0x0B,
    single 0x0C], false, true⟩,
  ⟨"[:upper:]", [.category upperLetter], false, true⟩,
  ⟨"[:word:]", [.category letter, .category letterNumber, .category decimalDigit,
    .category connector], false, true⟩,
  ⟨"[:xdigit:]", [.range 0x41 0x46, .range 0x61 0x66, .range 0x30 0x39], false, false⟩]

/-! Reading a class. -/

inductive Element where
  | unit (u : CodeUnit)
  | unitAndDash (u : CodeUnit)
  | span (low high : CodeUnit)
  | named (members : List Member)

inductive ClassReading where
  /-- The bracket is never closed, so it is an ordinary character. -/
  | unclosed
  /-- A class that no text matches; it takes the rest of the pattern with it. -/
  | never
  /-- A class of one ordinary unit stands for that unit. -/
  | literal (u : CodeUnit) (rest : Text)
  /-- A set, whether it works on code points, and what follows the class. -/
  | set (set : CharSet) (byPoints : Bool) (rest : Text)
  /-- A class whose ranges run backwards once halves are joined. -/
  | invalid

structure ClassState where
  negated : Bool
  elements : List Element := []
  excluded : List Member := []
  rangeStart : Option CodeUnit := none
  escaping : Bool := false
  byPoints : Bool := false

def Element.members : Element → List Member
  | .unit u => [single u.toNat]
  | .unitAndDash u => [single u.toNat, single 0x2D]
  | .span low high => [.range low.toNat high.toNat]
  | .named members => members

/-- Joins the halves of a pair that stand side by side; absent if a range would run backwards. -/
def joinHalves : List Member → Option (List Member)
  | .range a b :: .range c d :: rest =>
      if 0xD800 ≤ b ∧ b < 0xDC00 ∧ 0xDC00 ≤ c ∧ c < 0xE000 then
        let point := Text.pairPoint (UInt16.ofNat b) (UInt16.ofNat c)
        if a = b then (if c = d then (joinHalves rest).map (single point :: ·) else none)
        else (joinHalves rest).map fun tail =>
          if c = d then .range a point :: tail else .range a point :: single 0x2D :: single d :: tail
      else (joinHalves (.range c d :: rest)).map (.range a b :: ·)
  | member :: rest => (joinHalves rest).map (member :: ·)
  | [] => some []
termination_by members => members.length
decreasing_by
  all_goals
    simp only [List.length_cons]
    omega

/-- The members of a class whose first listed unit is a caret that did not stand right after the
bracket: such a class is complemented and the caret is not a member of it. -/
def caretFirst : List Element → Option (List Member)
  | .unit u :: rest => if u == '^' then some (rest.flatMap Element.members) else none
  | .unitAndDash u :: rest =>
      if u == '^' then some (single 0x2D :: rest.flatMap Element.members) else none
  | .span low high :: rest =>
      if low == '^' then some (single 0x2D :: single high.toNat :: rest.flatMap Element.members)
      else none
  | _ => none

def ClassState.close (state : ClassState) (rest : Text) : ClassReading :=
  let elements := state.elements.reverse
  let outside := if state.excluded.isEmpty then [] else [(!state.negated, state.excluded)]
  let listed (complemented : Bool) (members : List Member) : ClassReading :=
    match if state.byPoints then joinHalves members else some members with
    | some members => .set ⟨(complemented, members) :: outside⟩ state.byPoints rest
    | none => .invalid
  match elements with
  | [] => if state.excluded.isEmpty then .never else .set ⟨outside⟩ state.byPoints rest
  | _ =>
      let members := elements.flatMap Element.members
      if state.negated then listed true members
      else match elements, state.excluded, caretFirst elements with
        | [.unit u], [], _ =>
            if Text.isLineEnd u then listed false members else .literal u rest
        | _, _, some afterCaret => listed true afterCaret
        | _, _, none => listed false members

/-- Reads a class unit by unit. A closing bracket that comes first is a member. -/
def ClassState.read (fuel : Nat) (atStart : Bool) (state : ClassState) (t : Text) : ClassReading :=
  match fuel, t with
  | 0, _ | _, [] => .unclosed
  | fuel + 1, u :: rest =>
      if u == ']' && !atStart && !state.escaping then state.close rest
      else if u == '\\' && !state.escaping then
        read fuel false { state with escaping := true } rest
      else
        let named := if u == '[' && !state.escaping then
          namedClasses.find? (·.name.isPrefixOf t) else none
        match named, state.rangeStart with
        | some _, some _ => .never
        | some cls, none =>
            let state := { state with byPoints := state.byPoints || cls.byPoints }
            read fuel false
              (if cls.excludes then { state with excluded := state.excluded ++ cls.members }
               else { state with elements := .named cls.members :: state.elements })
              (t.drop cls.name.length)
        | none, some low =>
            let elements := if low < u then .span low u :: state.elements
              else if low == u then .unit u :: state.elements
              else state.elements
            read fuel false { state with elements, rangeStart := none, escaping := false } rest
        | none, none =>
            let state := { state with escaping := false }
            if Text.startsWith rest "-]" then
              read fuel false { state with elements := .unitAndDash u :: state.elements } (rest.drop 1)
            else if Text.startsWith rest "-" then
              read fuel false { state with rangeStart := some u } (rest.drop 1)
            else read fuel false { state with elements := .unit u :: state.elements } rest

def readClass (t : Text) : ClassReading :=
  match t with
  | u :: rest =>
      if u == '!' || u == '^' then ClassState.read (t.length + 1) true { negated := true } rest
      else ClassState.read (t.length + 1) true { negated := false } t
  | [] => .unclosed

end TabCompletion.Wildcard
