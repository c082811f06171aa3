import PerfReview.Json.Basic
import PerfReview.Number.Arithmetic
import PerfReview.Number.Layout

/-!
# Amounts

Numbers that keep the form in which they were given: an integer, a floating-point number, or a truth
value that counts as one or zero. They are written back in that form.
-/

namespace PerfReview

inductive Amount where
  | whole (n : Int)
  | real (x : Number.Binary64)
  | flag (b : Bool)
  deriving DecidableEq, Repr

namespace Amount

def ofJson? : Json → Option Amount
  | .int n => some (.whole n)
  | .float x => some (.real x)
  | .bool b => some (.flag b)
  | _ => none

def toJson : Amount → Json
  | whole n => .int n
  | real x => .float x
  | flag b => .bool b

def isNegative : Amount → Bool
  | whole n => n < 0
  | real x => x.isNegative
  | flag _ => false

def isZero : Amount → Bool
  | whole n => n = 0
  | real x => x.isZero
  | flag b => !b

/-- The amount to two decimal places; an integer stays as it is. -/
def rounded : Amount → Amount
  | real x => .real (x.roundPlaces 2)
  | flag b => .whole (if b then 1 else 0)
  | a => a

/-- The amount as a floating-point number; an integer beyond all of them is infinite. -/
def toReal : Amount → Number.Binary64
  | whole n => .ofSigned n 1
  | real x => x
  | flag b => .ofSigned (if b then 1 else 0) 1

def minus (a b : Amount) : Amount := .real (a.toReal.minus b.toReal)

def text : Amount → String
  | whole n => Number.intText n
  | real x => Number.Layout.plain.text x
  | flag b => if b then "True" else "False"

end Amount

end PerfReview
