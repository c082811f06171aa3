import PerfReview.Number.Binary64

/-!
# Shortest digits

The fewest decimal digits that read back as a given floating-point number, and of several such
texts the one nearest to it. The reals that round to `mantissa · 2 ^ exponent` form an interval
around it, ends included when the mantissa is even; the least grid of decimal numbers with a point
in that interval gives the digits, and on any grid only the two neighbours of the number matter.
-/

namespace PerfReview.Number.Binary64

/-- The reals that round to a number, and the number, in quarters of a unit of its last place:
`low`, `value` and `high` count `2 ^ exponent`. -/
structure Span where
  low : Nat
  value : Nat
  high : Nat
  exponent : Int
  closed : Bool

def span (mantissa : Nat) (exponent : Int) : Span where
  low := 4 * mantissa - (if mantissa = fullMantissa ∧ minExponent < exponent then 1 else 2)
  value := 4 * mantissa
  high := 4 * mantissa + 2
  exponent := exponent - 2
  closed := mantissa % 2 = 0

/-- `digits · 10 ^ k` and `quarters · 2 ^ e` over a common denominator. -/
def overCommon (digits : Nat) (k : Int) (quarters : Nat) (e : Int) : Nat × Nat :=
  let p := power 10 k
  let q := power 2 e
  (digits * p.1 * q.2, quarters * q.1 * p.2)

/-- The decimal number `digits · 10 ^ k` lies in the span. -/
def Span.holds (s : Span) (digits : Nat) (k : Int) : Bool :=
  let l := overCommon digits k s.low s.exponent
  let h := overCommon digits k s.high s.exponent
  if s.closed then l.2 ≤ l.1 && h.1 ≤ h.2 else l.2 < l.1 && h.1 < h.2

/-- The greatest `k` with `10 ^ k ≤ num / den`, for a positive quotient. -/
def decimalOrder (num den : Nat) : Int :=
  let e : Int := ((Nat.toDigits 10 num).length : Int) - ((Nat.toDigits 10 den).length : Int)
  let p := power 10 e
  if den * p.1 ≤ num * p.2 then e else e - 1

/-- The digits of the point of the grid `10 ^ k` that lies in the span, the nearer of two. -/
def Span.onGrid? (s : Span) (k : Int) : Option Nat :=
  let v := overCommon 1 k s.value s.exponent
  let below := v.2 / v.1
  let twice := 2 * (v.2 % v.1)
  match s.holds below k, s.holds (below + 1) k with
  | true, true =>
    if twice < v.1 || (twice = v.1 && below % 2 = 0) then some below else some (below + 1)
  | true, false => some below
  | false, true => some (below + 1)
  | false, false => none

/-- The shortest decimal number that reads back as `mantissa · 2 ^ exponent`: its digits and the
power of ten that they count. -/
def shortest (mantissa : Nat) (exponent : Int) : Nat × Int :=
  let r := ratio mantissa exponent
  let order := decimalOrder r.1 r.2
  let s := span mantissa exponent
  let found := (List.range 17).findSome? fun (n : Nat) =>
    (s.onGrid? (order - n)).map fun d => (d, order - (n : Int))
  found.getD (0, 0)

end PerfReview.Number.Binary64
