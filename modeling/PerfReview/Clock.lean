import PerfReview.Moment
import PerfReview.Number.Amount

/-!
# The clock

The times that a run asks for. The time of day stands still; the watch shows zero and `elapsed` in
turns, so that what begins at a look at zero and ends at the next one has taken `elapsed` seconds.
-/

namespace PerfReview

structure Clock where
  now : Moment
  elapsed : Amount
  /-- The watch shows `elapsed` at the next look. -/
  running : Bool := false
  deriving DecidableEq, Repr

namespace Clock

def seconds (c : Clock) : Amount := if c.running then c.elapsed else .real .zero

/-- The clock after a look at the watch. -/
def looked (c : Clock) : Clock := { c with running := !c.running }

end Clock

end PerfReview
