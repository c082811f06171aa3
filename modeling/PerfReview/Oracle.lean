import PerfReview.Prompt.Request

/-!
# Oracles

The model as the program sees it: a state, and for each request an ending of the call and the next
state. A call ends with a value, with a failure of its own kind (a refusal), with any other failure,
or not at all. A failure by a time-out is taken for the end of one of the short waits of the caller,
who waits on as if the call had not ended; a call that is waited for without end fires the token of
the run. The token may also fire during a call whose ending is there before the firing is noticed.
-/

namespace PerfReview

/-- How a call to the model ends. -/
inductive Ending where
  | text (s : String)
  /-- A value that is no text. -/
  | noText
  | refused (reason : String)
  | failed (reason : String)
  | timedOut
  | silent
  deriving DecidableEq, Repr

def Ending.isOpen : Ending → Bool
  | timedOut | silent => true
  | _ => false

structure Oracle (σ : Type) where
  call : σ → Request → Ending × σ
  /-- The token fires during the call, but its ending comes first. -/
  interrupts : σ → Request → Bool := fun _ _ => false

namespace Oracle

/-- The model that gives listed endings, the last one again and again; its state counts the calls. -/
def scripted (endings : List Ending) : Oracle Nat where
  call n _ := ((endings[n]?).getD (endings.getLastD (.text "")), n + 1)

end Oracle

end PerfReview
