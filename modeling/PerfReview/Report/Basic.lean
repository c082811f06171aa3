import PerfReview.Audit
import PerfReview.Limits
import PerfReview.Result

/-!
# Reports

What a report shows: the result of a run, the limits and the audit findings it had, and the time
that stands in for an unknown start. The three sections of a report are the lists of issues by
severity.
-/

namespace PerfReview

structure Report where
  result : Result
  limits : Option Limits := none
  audit : Option Audit := none
  /-- The time of writing. -/
  now : Moment
  deriving DecidableEq, Repr

namespace Severity

def title : Severity → String
  | critical => "Critical Issues"
  | warning => "Warnings"
  | suggestion => "Suggestions"

def emptyText : Severity → String
  | critical => "No critical issues found"
  | warning => "No warnings found"
  | suggestion => "No suggestions found"

end Severity

namespace Report

/-- When the run started. -/
def timestamp (r : Report) : String := (r.result.startedAt.getD r.now).isoSeconds

/-- The time that the run took, to two places. -/
def duration (r : Report) : Amount := r.result.duration.rounded

def findings? (r : Report) : Option Audit := r.audit.filter (!·.isEmpty)

def issues (r : Report) (s : Severity) : List Issue := r.result.findings.ofSeverity s

def coverage (r : Report) : String :=
  s!"{Number.natText r.result.analyzed.length} ({Number.intText r.result.batchCount} batch(es))"

def cancelledText : String :=
  "Analysis was cancelled before every batch completed; findings below are partial."

end Report

end PerfReview
