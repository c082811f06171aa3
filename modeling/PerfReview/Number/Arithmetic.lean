import PerfReview.Number.Binary64

/-!
# Sums, differences and products of floating-point numbers

The exact sum, difference or product, rounded once. A sum of opposite infinities is not a number; an
exact sum of zero is positive unless both numbers are negative zeros. A product of an infinity and
zero is not a number.
-/

namespace PerfReview.Number.Binary64

def ofSigned (num : Int) (den : Nat) : Binary64 := ofRatio (num < 0) num.natAbs den

/-- A finite number as a signed quotient. -/
def signed (negative : Bool) (mantissa : Nat) (exponent : Int) : Int × Nat :=
  let r := ratio mantissa exponent
  (if negative then -(r.1 : Int) else r.1, r.2)

def add : Binary64 → Binary64 → Binary64
  | .nan, _ | _, .nan => .nan
  | .infinite s, .infinite t => if s = t then .infinite s else .nan
  | .infinite s, _ | _, .infinite s => .infinite s
  | .finite s m e, .finite t n f =>
    let a := signed s m e
    let b := signed t n f
    if m = 0 && n = 0 then .finite (s && t) 0 minExponent
    else ofSigned (a.1 * b.2 + b.1 * a.2) (a.2 * b.2)

def negate : Binary64 → Binary64
  | .nan => .nan
  | .infinite s => .infinite (!s)
  | .finite s m e => .finite (!s) m e

def minus (x y : Binary64) : Binary64 := add x (negate y)

def times : Binary64 → Binary64 → Binary64
  | .nan, _ | _, .nan => .nan
  | .infinite s, .infinite t => .infinite (s != t)
  | .infinite s, .finite t m _ | .finite t m _, .infinite s =>
    if m = 0 then .nan else .infinite (s != t)
  | .finite s m e, .finite t n f =>
    let a := ratio m e
    let b := ratio n f
    ofRatio (s != t) (a.1 * b.1) (a.2 * b.2)

end PerfReview.Number.Binary64
