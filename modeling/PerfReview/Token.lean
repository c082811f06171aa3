import PerfReview.Number.Amount

/-!
# Cancellation

The token by which a run is called off. It fires once and stays fired; a wait on a fired token is
over at once.
-/

namespace PerfReview

structure Token where
  fired : Bool := false
  deriving DecidableEq, Repr

/-- Why a token refused. -/
inductive TokenFault where
  | cancelled
  /-- The wait is longer than the clock can measure, in whatever form its length is given. -/
  | tooLong
  deriving DecidableEq, Repr

namespace TokenFault

def message : TokenFault → String
  | cancelled => "Analysis cancelled"
  | tooLong => "timestamp too large to convert to C _PyTime_t"

end TokenFault

namespace Token

def cancel (_ : Token) : Token := ⟨true⟩

/-- Passes unless the token has fired. -/
def check (t : Token) : Except TokenFault Unit :=
  if t.fired then .error .cancelled else .ok ()

/-- `2 ^ 63`, the nanoseconds that are beyond the clock. -/
def clockSpan : Nat := 0x8000000000000000

/-- A time in seconds reaches beyond the nanoseconds that a signed word of 64 bits counts. -/
def isBeyondClock : Amount → Bool
  | .whole n => (clockSpan : Int) ≤ n * 1000000000
  | .real .nan => false
  | .real (.infinite negative) => !negative
  | .real (.finite negative m e) =>
    let r := Number.Binary64.ratio m e
    !negative && clockSpan * r.2 ≤ r.1 * 1000000000
  | .flag _ => false

/-- Waits; the answer says whether the token has fired. -/
def wait (t : Token) (seconds : Amount) : Except TokenFault Bool :=
  if t.fired then .ok true
  else if isBeyondClock seconds then .error .tooLong
  else .ok false

end Token

end PerfReview
