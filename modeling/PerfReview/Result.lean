import PerfReview.Assoc
import PerfReview.Issue
import PerfReview.Moment
import PerfReview.Number.Amount

/-!
# Results

The findings of a run, as a whole and file by file, with what the run did. Adding an issue puts it
at the end of the list of its severity twice: in the findings of the run and in those of its file.
-/

namespace PerfReview

structure Findings where
  critical : List Issue := []
  warnings : List Issue := []
  suggestions : List Issue := []
  deriving DecidableEq, Repr

namespace Findings

def ofSeverity (f : Findings) : Severity → List Issue
  | .critical => f.critical
  | .warning => f.warnings
  | .suggestion => f.suggestions

def add (i : Issue) (f : Findings) : Findings :=
  match i.severity with
  | .critical => { f with critical := f.critical ++ [i] }
  | .warning => { f with warnings := f.warnings ++ [i] }
  | .suggestion => { f with suggestions := f.suggestions ++ [i] }

def total (f : Findings) : Nat := f.critical.length + f.warnings.length + f.suggestions.length

theorem ofSeverity_add (i : Issue) (f : Findings) (s : Severity) :
    (f.add i).ofSeverity s = f.ofSeverity s ++ if i.severity = s then [i] else [] := by
  cases h : i.severity <;> cases s <;> simp [add, ofSeverity, h]

end Findings

structure Result where
  findings : Findings := {}
  /-- The findings of each file, in the order in which the files were taken up. -/
  byFile : List (String × Findings) := []
  analyzed : List String := []
  skipped : List String := []
  /-- The labels of the batches without an answer. -/
  failed : List String := []
  batchCount : Int := 0
  rejectedCount : Int := 0
  cancelled : Bool := false
  /-- The folder under review. -/
  target : String := ""
  startedAt : Option Moment := none
  duration : Amount := .real .zero
  deriving DecidableEq, Repr

namespace Result

def total (r : Result) : Nat := r.findings.total

def ofFile (r : Result) (path : String) : Findings := (Assoc.get? r.byFile path).getD {}

/-- Takes up a file: it has findings, none at first. -/
def takeUp (path : String) (r : Result) : Result :=
  if (Assoc.get? r.byFile path).isSome then r
  else { r with byFile := r.byFile ++ [(path, {})] }

def add (i : Issue) (r : Result) : Result :=
  { r with
    findings := r.findings.add i
    byFile := Assoc.put i.file ((r.ofFile i.file).add i) r.byFile }

def addAll (issues : List Issue) (r : Result) : Result := issues.foldl (fun r i => r.add i) r

end Result

end PerfReview
