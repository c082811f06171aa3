import PerfReview.Number.Rounding

/-!
# Binary floating-point numbers

The numbers of the 64-bit binary format, as exact values: not-a-number, the two infinities, and
`±mantissa · 2 ^ exponent`. A finite number has one representation: its mantissa is below `2 ^ 53`,
its exponent at least -1074, and a mantissa below `2 ^ 52` goes with the least exponent. Every
operation is an exact quotient rounded once by `ofRatio`.
-/

namespace PerfReview.Number

/-- A number of the 64-bit binary format. -/
inductive Binary64 where
  | nan
  | infinite (negative : Bool)
  | finite (negative : Bool) (mantissa : Nat) (exponent : Int)
  deriving DecidableEq, Repr

namespace Binary64

def minExponent : Int := -1074

def maxExponent : Int := 971

/-- `2 ^ 52`, the least mantissa that goes with every exponent. -/
def fullMantissa : Nat := 0x10000000000000

def zero : Binary64 := .finite false 0 minExponent

/-- `base ^ e` as a quotient. -/
def power (base : Nat) (e : Int) : Nat × Nat :=
  if 0 ≤ e then (Nat.pow base e.toNat, 1) else (1, Nat.pow base (-e).toNat)

/-- The greatest `e` with `2 ^ e ≤ num / den`, for a positive quotient. -/
def binaryOrder (num den : Nat) : Int :=
  let e : Int := (num.log2 : Int) - (den.log2 : Int)
  let p := power 2 e
  if den * p.1 ≤ num * p.2 then e else e - 1

/-- The number nearest to `num / den` with the given sign; a tie goes to the even mantissa, and
what rounds beyond the greatest finite number is infinite. -/
def ofRatio (negative : Bool) (num den : Nat) : Binary64 :=
  if num = 0 then .finite negative 0 minExponent
  else
    let q := max (binaryOrder num den - 52) minExponent
    let p := power 2 q
    let m := roundHalfEven (num * p.2) (den * p.1)
    let (m, q) := if m = 2 * fullMantissa then (fullMantissa, q + 1) else (m, q)
    if maxExponent < q then .infinite negative else .finite negative m q

/-- The decimal digits of a number, up to one, from its binary digits. -/
def decimalLength (n : Nat) : Nat := n.log2 * 30103 / 100000 + 1

/-- The number nearest to `mantissa · 10 ^ exponent`. Values out of reach of the format are settled
by their order of magnitude. -/
def ofDecimal (negative : Bool) (mantissa : Nat) (exponent : Int) : Binary64 :=
  let order : Int := exponent + decimalLength mantissa
  if mantissa = 0 || order < -330 then .finite negative 0 minExponent
  else if 320 < order then .infinite negative
  else
    let p := power 10 exponent
    ofRatio negative (mantissa * p.1) p.2

/-- The number nearest to an integer, unless that is out of range. -/
def ofInt? (n : Int) : Option Binary64 :=
  match ofRatio (n < 0) n.natAbs 1 with
  | .finite s m e => some (.finite (s && m ≠ 0) m e)
  | _ => none

/-- The magnitude of a finite number as a quotient. -/
def ratio (mantissa : Nat) (exponent : Int) : Nat × Nat :=
  let p := power 2 exponent
  (mantissa * p.1, p.2)

/-- The number times `num / den`, for a positive factor. -/
def scale (x : Binary64) (num den : Nat) : Binary64 :=
  match x with
  | .nan => .nan
  | .infinite s => .infinite s
  | .finite s m e => let r := ratio m e; ofRatio s (r.1 * num) (r.2 * den)

/-- The number is below zero; neither a zero nor not-a-number is. -/
def isNegative : Binary64 → Bool
  | .nan => false
  | .infinite s => s
  | .finite s m _ => s && m ≠ 0

/-- The number is one of the two zeros. -/
def isZero : Binary64 → Bool
  | .finite _ m _ => m = 0
  | _ => false

def isFinite : Binary64 → Bool
  | .finite .. => true
  | _ => false

/-- The magnitude of a finite number in units of `10 ^ -places`, rounded to a natural. -/
def unitsAt (places mantissa : Nat) (exponent : Int) : Nat :=
  let r := ratio mantissa exponent
  roundHalfEven (r.1 * Nat.pow 10 places) r.2

/-- The number nearest to the value rounded to so many decimal places. -/
def roundPlaces (x : Binary64) (places : Nat) : Binary64 :=
  match x with
  | .finite s m e => ofRatio s (unitsAt places m e) (Nat.pow 10 places)
  | x => x

/-- The integer that a finite number is, if it is one. -/
def toInt? : Binary64 → Option Int
  | .finite s m e =>
    let r := ratio m e
    if r.1 % r.2 = 0 then some (if s then -((r.1 / r.2 : Nat) : Int) else (r.1 / r.2 : Nat))
    else none
  | _ => none

end Binary64

end PerfReview.Number
