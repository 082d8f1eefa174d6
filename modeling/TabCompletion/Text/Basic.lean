/-!
Text as a sequence of 16-bit units. Cursor positions, extents, lengths and the order of texts
all count units, and a position may fall between the two halves of a pair, so a text is the list
of its units and nothing more.
-/

namespace TabCompletion

abbrev CodeUnit := UInt16

abbrev Text := List CodeUnit

namespace Text

def unitsOfPoint (point : Nat) : Text :=
  if point < 0x10000 then [UInt16.ofNat point]
  else [UInt16.ofNat (0xD800 + (point - 0x10000) / 0x400),
        UInt16.ofNat (0xDC00 + (point - 0x10000) % 0x400)]

def ofPoints (points : List Nat) : Text := points.flatMap unitsOfPoint

def ofString (s : String) : Text := s.toList.flatMap fun c => unitsOfPoint c.toNat

instance : Coe String Text := ⟨ofString⟩

instance : Coe Char CodeUnit := ⟨fun c => UInt16.ofNat c.toNat⟩

def isHighHalf (u : CodeUnit) : Bool := 0xD800 ≤ u && u < 0xDC00

def isLowHalf (u : CodeUnit) : Bool := 0xDC00 ≤ u && u < 0xE000

def pairPoint (high low : CodeUnit) : Nat :=
  0x10000 + (high.toNat - 0xD800) * 0x400 + (low.toNat - 0xDC00)

/-- The code points of a text; a half without its partner stands for itself. -/
def points : Text → List Nat
  | [] => []
  | [u] => [u.toNat]
  | u :: v :: rest =>
      if isHighHalf u && isLowHalf v then pairPoint u v :: points rest
      else u.toNat :: points (v :: rest)

def toStr (t : Text) : String :=
  String.ofList ((points t).map fun p =>
    if 0xD800 ≤ p ∧ p < 0xE000 then Char.ofNat 0xFFFD else Char.ofNat p)

/-! Cutting and searching. -/

def slice (t : Text) (start stop : Nat) : Text := (t.take stop).drop start

/-- The slice between two integer offsets, each moved into the text and put in order first. -/
def between (t : Text) (a b : Int) : Text :=
  slice t (min a.toNat b.toNat) (max a.toNat b.toNat)

def startsWith (t head : Text) : Bool := head.isPrefixOf t

def endsWith (t tail : Text) : Bool := tail.isSuffixOf t

def indexOf? (needle : Text) : Text → Option Nat
  | [] => if needle.isEmpty then some 0 else none
  | u :: rest =>
      if needle.isPrefixOf (u :: rest) then some 0
      else (indexOf? needle rest).map (· + 1)

def lastIndexOf? (needle : Text) : Text → Option Nat
  | [] => if needle.isEmpty then some 0 else none
  | u :: rest =>
      match lastIndexOf? needle rest with
      | some i => some (i + 1)
      | none => if needle.isPrefixOf (u :: rest) then some 0 else none

def findIndex? (p : CodeUnit → Bool) (t : Text) : Option Nat := t.findIdx? p

def findLastIndex? (p : CodeUnit → Bool) (t : Text) : Option Nat :=
  (t.reverse.findIdx? p).map (t.length - 1 - ·)

def contains (t needle : Text) : Bool := (indexOf? needle t).isSome

def splitOn (separator : CodeUnit) : Text → List Text
  | [] => [[]]
  | u :: rest =>
      match splitOn separator rest with
      | [] => [[u]]
      | piece :: pieces =>
          if u == separator then [] :: piece :: pieces else (u :: piece) :: pieces

def join (separator : Text) (pieces : List Text) : Text := (pieces.intersperse separator).flatten

def replicate (n : Nat) (u : CodeUnit) : Text := List.replicate n u

def padLeft (t : Text) (length : Nat) (fill : CodeUnit) : Text :=
  List.replicate (length - t.length) fill ++ t

/-! Classes of units. -/

def isSpace (u : CodeUnit) : Bool :=
  (0x09 ≤ u && u ≤ 0x0D) || u == 0x20 || u == 0xA0 || u == 0x1680 || (0x2000 ≤ u && u ≤ 0x200A)
    || u == 0x2028 || u == 0x2029 || u == 0x202F || u == 0x205F || u == 0x3000 || u == 0xFEFF

def isLineEnd (u : CodeUnit) : Bool := u == 0x0A || u == 0x0D || u == 0x2028 || u == 0x2029

def isDigit (u : CodeUnit) : Bool := 0x30 ≤ u && u ≤ 0x39

def isAsciiLetter (u : CodeUnit) : Bool := (0x41 ≤ u && u ≤ 0x5A) || (0x61 ≤ u && u ≤ 0x7A)

def isWordUnit (u : CodeUnit) : Bool := isAsciiLetter u || isDigit u || u == 0x5F

def trimLeft (t : Text) : Text := t.dropWhile isSpace

def trimRight (t : Text) : Text := (t.reverse.dropWhile isSpace).reverse

def trim (t : Text) : Text := trimRight (trimLeft t)

/-! Order. -/

def compare : Text → Text → Ordering
  | [], [] => .eq
  | [], _ :: _ => .lt
  | _ :: _, [] => .gt
  | a :: s, b :: t => if a < b then .lt else if b < a then .gt else compare s t

def ofNat (n : Nat) : Text := ofString (String.ofList (Nat.toDigits 10 n))

def ofInt (n : Int) : Text := if n < 0 then ofString "-" ++ ofNat n.natAbs else ofNat n.natAbs

end Text

end TabCompletion
