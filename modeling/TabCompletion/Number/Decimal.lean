import TabCompletion.Number.Basic
import TabCompletion.Text.Basic

/-!
Numbers as decimal text. A number is written with the fewest digits that read back to it, the
nearest such decimal, positionally between `1e-6` and `1e21`. Reading accepts decimals, the
three based notations and the word for infinity, and rounds once.
-/

namespace TabCompletion.Number

def tenTo (n : Nat) : Nat := Nat.pow 10 n

/-! Writing. -/

def tensNeeded (num den : Nat) : Nat → Nat → Nat
  | 0, power => power
  | fuel + 1, power => if den ≤ num * tenTo power then power else tensNeeded num den fuel (power + 1)

/-- The place `k` with `10 ^ (k - 1) ≤ num / den < 10 ^ k`. -/
def decimalPlace (num den : Nat) : Int :=
  if den ≤ num then ((Nat.toDigits 10 (num / den)).length : Int)
  else 1 - (tensNeeded num den 400 1 : Int)

/-- The end points and the value of the interval that rounds to a number, over one denominator.
The gap below a power of two is half the gap above. -/
structure RoundingInterval where
  low : Nat
  value : Nat
  high : Nat
  den : Nat
  closed : Bool

def roundingInterval (mantissa : Nat) (exponent : Int) : RoundingInterval :=
  let gap := if mantissa = twoTo 52 ∧ leastExponent < exponent then 1 else 2
  let (unit, den) := scaled 1 1 (exponent - 2)
  { low := (4 * mantissa - gap) * unit, value := 4 * mantissa * unit,
    high := (4 * mantissa + 2) * unit, den, closed := mantissa % 2 = 0 }

def RoundingInterval.holds (r : RoundingInterval) (digits : Nat) (place : Int) : Bool :=
  let (n, d) := if 0 ≤ place then (digits * tenTo place.toNat, 1) else (digits, tenTo (-place).toNat)
  let scaledDigits := n * r.den
  if r.closed then r.low * d ≤ scaledDigits && scaledDigits ≤ r.high * d
  else r.low * d < scaledDigits && scaledDigits < r.high * d

/-- The decimal of `count` digits that is nearest to the value and reads back, if there is one;
the result is the digits and the place of their last one. -/
def RoundingInterval.onGrid? (r : RoundingInterval) (top : Int) (count : Nat) : Option (Nat × Int) :=
  let place := top - count
  let (n, d) := if 0 ≤ place then (r.value, r.den * tenTo place.toNat)
    else (r.value * tenTo (-place).toNat, r.den)
  let below := n / d
  let nearer := if 2 * (n % d) < d then below else below + 1
  let farther := if nearer = below then below + 1 else below
  if r.holds nearer place then some (nearer, place)
  else if r.holds farther place then some (farther, place)
  else none

def shortest (r : RoundingInterval) (top : Int) : Nat → Nat → Nat × Int
  | 0, count => (r.onGrid? top count).getD (0, 0)
  | fuel + 1, count => (r.onGrid? top count).getD (shortest r top fuel (count + 1))

def stripZeros : Nat → Nat → Int → Nat × Int
  | 0, digits, place => (digits, place)
  | fuel + 1, digits, place =>
      if digits ≠ 0 ∧ digits % 10 = 0 then stripZeros fuel (digits / 10) (place + 1)
      else (digits, place)

def shortestDigits (mantissa : Nat) (exponent : Int) : Nat × Int :=
  let r := roundingInterval mantissa exponent
  let (digits, place) := shortest r (decimalPlace r.value r.den) 17 1
  stripZeros 20 digits place

/-- Positional notation for the places from `1e-6` up to `1e21`, scientific notation beyond. -/
def writeDigits (digits : Nat) (place : Int) : Text :=
  let ds := Text.ofNat digits
  let count : Int := ds.length
  let point := count + place
  if count ≤ point ∧ point ≤ 21 then ds ++ Text.replicate (point - count).toNat '0'
  else if 0 < point ∧ point ≤ 21 then ds.take point.toNat ++ "." ++ ds.drop point.toNat
  else if -6 < point ∧ point ≤ 0 then "0." ++ Text.replicate (-point).toNat '0' ++ ds
  else
    let power := point - 1
    let sign : Text := if power < 0 then "-" else "+"
    let head := if ds.length ≤ 1 then ds else ds.take 1 ++ "." ++ ds.drop 1
    head ++ "e" ++ sign ++ Text.ofNat power.natAbs

def toText : Number → Text
  | .nan => "NaN"
  | .infinite negative => if negative then "-Infinity" else "Infinity"
  | .finite negative mantissa exponent =>
      if mantissa = 0 then "0"
      else
        let (digits, place) := shortestDigits mantissa exponent
        let body := writeDigits digits place
        if negative then "-" ++ body else body

/-! Reading. -/

def digitValue? (u : CodeUnit) : Option Nat :=
  if 0x30 ≤ u && u ≤ 0x39 then some (u.toNat - 0x30)
  else if 0x41 ≤ u && u ≤ 0x46 then some (u.toNat - 0x37)
  else if 0x61 ≤ u && u ≤ 0x66 then some (u.toNat - 0x57)
  else none

def natInBase? (base : Nat) (t : Text) : Option Nat :=
  if t.isEmpty then none
  else t.foldl (fun total u =>
    match total, digitValue? u with
    | some n, some d => if d < base then some (n * base + d) else none
    | _, _ => none) (some 0)

/-- `digits * 10 ^ place`, rounded. Places far outside the range of numbers are settled first. -/
def ofDecimal (negative : Bool) (digits : Nat) (place : Int) : Number :=
  let top : Int := (Nat.toDigits 10 digits).length + place
  if digits = 0 then .finite negative 0 leastExponent
  else if 400 < top then .infinite negative
  else if top < -400 then .finite negative 0 leastExponent
  else if 0 ≤ place then round negative (digits * tenTo place.toNat) 1 0
  else round negative digits (tenTo (-place).toNat) 0

def decimal? (negative : Bool) (t : Text) : Option Number :=
  let whole := t.takeWhile Text.isDigit
  let rest := t.dropWhile Text.isDigit
  let (fraction, rest) := match rest with
    | u :: tail => if u == '.' then (tail.takeWhile Text.isDigit, tail.dropWhile Text.isDigit) else ([], rest)
    | [] => ([], rest)
  if whole.isEmpty && fraction.isEmpty then none
  else
    let digits := (natInBase? 10 (whole ++ fraction)).getD 0
    let place := -(fraction.length : Int)
    match rest with
    | [] => some (ofDecimal negative digits place)
    | u :: tail =>
        if u == 'e' || u == 'E' then
          let (sign, power) := match tail with
            | v :: more => if v == '-' then (true, more) else if v == '+' then (false, more) else (false, tail)
            | [] => (false, tail)
          if power.all Text.isDigit then
            (natInBase? 10 power).map fun n =>
              ofDecimal negative digits (place + if sign then -(n : Int) else n)
          else none
        else none

def signed? (t : Text) : Option Number :=
  let (negative, body) := match t with
    | u :: rest => if u == '-' then (true, rest) else if u == '+' then (false, rest) else (false, t)
    | [] => (false, t)
  if body == Text.ofString "Infinity" then some (.infinite negative) else decimal? negative body

/-- The number that a text denotes: the empty text is zero, and text that denotes no number is
`nan`. Space around the number is ignored. -/
def ofText (t : Text) : Number :=
  match Text.trim t with
  | [] => zero
  | [u] => (signed? [u]).getD .nan
  | u :: v :: digits =>
      let based (base : Nat) : Number :=
        match natInBase? base digits with
        | some n => ofNat n
        | none => .nan
      if u == '0' && (v == 'x' || v == 'X') then based 16
      else if u == '0' && (v == 'o' || v == 'O') then based 8
      else if u == '0' && (v == 'b' || v == 'B') then based 2
      else (signed? (u :: v :: digits)).getD .nan

end TabCompletion.Number
