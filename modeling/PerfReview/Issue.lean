import PerfReview.Number.Layout

/-!
# Issues

A finding about a span of lines of a source file, with one of three severities.
-/

namespace PerfReview

inductive Severity where
  | critical
  | warning
  | suggestion
  deriving DecidableEq, Repr

namespace Severity

def all : List Severity := [critical, warning, suggestion]

def name : Severity → String
  | critical => "critical"
  | warning => "warning"
  | suggestion => "suggestion"

/-- The symbol that marks an issue in the answers of the model. -/
def marker : Severity → String
  | critical => "🚨"
  | warning => "⚠\uFE0F"
  | suggestion => "💡"

/-- The name of the list that holds the issues of this severity. -/
def listName : Severity → String
  | critical => "critical"
  | warning => "warnings"
  | suggestion => "suggestions"

def ofName? (s : String) : Option Severity := all.find? (·.name = s)

theorem mem_all (s : Severity) : s ∈ all := by cases s <;> decide

end Severity

structure Issue where
  severity : Severity
  /-- The file as its batch lists it. -/
  file : String
  startLine : Int
  endLine : Int
  description : String
  impact : String
  codeContext : String
  solution : String
  expectedImprovement : String
  deriving DecidableEq, Repr

namespace Issue

def location (i : Issue) : String :=
  s!"{i.file}:{Number.intText i.startLine}-{Number.intText i.endLine}"

end Issue

/-- A span of lines, counted from one, lies within a file of so many lines. -/
def spanWithin (first last : Int) (lines : Int) : Bool :=
  1 ≤ first && first ≤ last && last ≤ lines

end PerfReview
