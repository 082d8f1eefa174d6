/-!
Double-precision numbers, exact. A finite number is a sign, a mantissa below `2 ^ 53` and a power
of two; every operation computes the exact result and rounds it once, to nearest and to the even
mantissa on a tie.
-/

namespace TabCompletion

/-- A number of 53 significant bits, or an infinity, or no number at all. `finite negative m e`
stands for `m * 2 ^ e`, with `m` of exactly 53 bits unless `e` is the least exponent. -/
inductive Number where
  | nan
  | infinite (negative : Bool)
  | finite (negative : Bool) (mantissa : Nat) (exponent : Int)
  deriving DecidableEq, Repr

namespace Number

def leastExponent : Int := -1074

def twoTo (n : Nat) : Nat := Nat.pow 2 n

def zero : Number := .finite false 0 leastExponent

instance : Inhabited Number := ⟨zero⟩

def scaled (num den : Nat) (shift : Int) : Nat × Nat :=
  if 0 ≤ shift then (num * twoTo shift.toNat, den) else (num, den * twoTo (-shift).toNat)

def nearestEven (num den : Nat) : Nat :=
  let floor := num / den
  let rest := 2 * (num % den)
  if rest < den then floor
  else if den < rest then floor + 1
  else if floor % 2 = 0 then floor else floor + 1

/-- The number nearest to `num / den * 2 ^ exponent`. -/
def round (negative : Bool) (num den : Nat) (exponent : Int) : Number :=
  if num = 0 then .finite negative 0 leastExponent
  else
    let size : Int := (Nat.log2 num : Int) - (Nat.log2 den : Int) + exponent
    let coarse := max leastExponent (size - 53)
    let (n, d) := scaled num den (exponent - coarse)
    let target := if twoTo 53 ≤ n / d then coarse + 1 else coarse
    let (n, d) := scaled num den (exponent - target)
    let mantissa := nearestEven n d
    let (mantissa, target) :=
      if mantissa = twoTo 53 then (twoTo 52, target + 1) else (mantissa, target)
    if 971 < target then .infinite negative else .finite negative mantissa target

def ofNat (n : Nat) : Number := round false n 1 0

def ofInt (n : Int) : Number := round (n < 0) n.natAbs 1 0

def neg : Number → Number
  | .nan => .nan
  | .infinite s => .infinite (!s)
  | .finite s m e => .finite (!s) m e

def aligned (negative : Bool) (mantissa : Nat) (exponent common : Int) : Int :=
  let magnitude := mantissa * twoTo (exponent - common).toNat
  if negative then -(magnitude : Int) else magnitude

def add : Number → Number → Number
  | .nan, _ | _, .nan => .nan
  | .infinite s, .infinite t => if s = t then .infinite s else .nan
  | .infinite s, _ => .infinite s
  | _, .infinite t => .infinite t
  | .finite s m e, .finite t n f =>
      let common := min e f
      let sum := aligned s m e common + aligned t n f common
      if sum = 0 then .finite (s && t) 0 leastExponent
      else round (sum < 0) sum.natAbs 1 common

def sub (a b : Number) : Number := add a (neg b)

def mul : Number → Number → Number
  | .nan, _ | _, .nan => .nan
  | .infinite s, .infinite t => .infinite (s != t)
  | .infinite s, .finite t n _ => if n = 0 then .nan else .infinite (s != t)
  | .finite s m _, .infinite t => if m = 0 then .nan else .infinite (s != t)
  | .finite s m e, .finite t n f => round (s != t) (m * n) 1 (e + f)

def div : Number → Number → Number
  | .nan, _ | _, .nan => .nan
  | .infinite _, .infinite _ => .nan
  | .infinite s, .finite t _ _ => .infinite (s != t)
  | .finite s _ _, .infinite t => .finite (s != t) 0 leastExponent
  | .finite s m e, .finite t n f =>
      if n = 0 then (if m = 0 then .nan else .infinite (s != t))
      else round (s != t) m n (e - f)

def rem : Number → Number → Number
  | .nan, _ | _, .nan => .nan
  | .infinite _, _ => .nan
  | a, .infinite _ => a
  | .finite s m e, .finite _ n f =>
      if n = 0 then .nan
      else
        let common := min e f
        let dividend := m * twoTo (e - common).toNat
        let divisor := n * twoTo (f - common).toNat
        round s (dividend % divisor) 1 common

def compare? : Number → Number → Option Ordering
  | .nan, _ | _, .nan => none
  | .infinite s, .infinite t => some (if s = t then .eq else if s then .lt else .gt)
  | .infinite s, _ => some (if s then .lt else .gt)
  | _, .infinite t => some (if t then .gt else .lt)
  | .finite s m e, .finite t n f =>
      let common := min e f
      some (compare (aligned s m e common) (aligned t n f common))

/-- Numeric equality: the two zeros are equal, and no number differs from itself. -/
def eq (a b : Number) : Bool := compare? a b == some .eq

def lt (a b : Number) : Bool := compare? a b == some .lt

def le (a b : Number) : Bool := compare? a b == some .lt || compare? a b == some .eq

def isNaN : Number → Bool
  | .nan => true
  | _ => false

def isFinite : Number → Bool
  | .finite .. => true
  | _ => false

def floorInt (negative : Bool) (mantissa : Nat) (exponent : Int) : Int :=
  if 0 ≤ exponent then aligned negative mantissa exponent 0
  else
    let signed : Int := if negative then -(mantissa : Int) else mantissa
    Int.fdiv signed (twoTo (-exponent).toNat)

def floor : Number → Number
  | .finite s m e => if m = 0 then .finite s m e else ofInt (floorInt s m e)
  | other => other

def toInt? : Number → Option Int
  | .finite s m e => if eq (ofInt (floorInt s m e)) (.finite s m e) then some (floorInt s m e) else none
  | _ => none

/-- The nearest whole number; a half goes up. -/
def roundHalfUp (a : Number) : Number :=
  match a with
  | .finite s m e =>
      let (n, d) := scaled m 1 (e + 1)
      let doubled : Int := if s then -(n : Int) else n
      let whole := Int.fdiv (doubled + d) (2 * d)
      if whole = 0 then .finite s 0 leastExponent else ofInt whole
  | other => other

def isTruthy : Number → Bool
  | .nan => false
  | .infinite _ => true
  | .finite _ m _ => m != 0

end Number

end TabCompletion
