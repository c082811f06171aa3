/-!
# Log entries

What the program reports of its work: a level, the part of the program that speaks, and a line of
text.
-/

namespace PerfReview.Log

inductive Level where
  | debug
  | info
  | warning
  | error
  | critical
  deriving DecidableEq, Repr

namespace Level

def name : Level → String
  | debug => "DEBUG"
  | info => "INFO"
  | warning => "WARNING"
  | error => "ERROR"
  | critical => "CRITICAL"

/-- The weight of a level; a threshold lets through entries of its weight and above. -/
def weight : Level → Nat
  | debug => 10
  | info => 20
  | warning => 30
  | error => 40
  | critical => 50

end Level

/-- The channel of the whole program, in which the channels of its parts lie. -/
def rootChannel : String := "perflens"

/-- The channel of a part of the program; no name stands for the whole. -/
def channel (part : String) : String :=
  if part = "" then rootChannel else s!"{rootChannel}.{part}"

/-- An entry of the log. -/
structure Entry where
  level : Level
  part : String
  text : String
  deriving DecidableEq, Repr

namespace Entry

def debug (part text : String) : Entry := ⟨.debug, part, text⟩

def info (part text : String) : Entry := ⟨.info, part, text⟩

def warning (part text : String) : Entry := ⟨.warning, part, text⟩

end Entry

end PerfReview.Log
