import PerfReview.Proofs.Faults
import PerfReview.Proofs.Response.Classification
import PerfReview.Proofs.Run.Course

/-!
# The trace of a run

A run that gives a result has begun the first `k` batches of its plan, each with one request to the
model. Its result accounts for these calls, and it is cancelled exactly if batches are left or the
last call was left open.
-/

namespace PerfReview

variable {σ : Type}

theorem Account.finish {root : String} {cs : List Exchange} {r : Result} (h : Account root cs r)
    (cancelled : Bool) (duration : Amount) :
    Account root cs { r with cancelled := cancelled, duration := duration } :=
  ⟨h.analyzed, h.failed, h.findings, h.rejectedCount⟩

namespace Sample

def site : Site where
  disk := ⟨.folder [("p", .folder [("a.js", .file [120, 10] 0o644)])]⟩
  working := "/"
  home := "/"

def clock : Clock := { now := Moment.ofMilliseconds 0, elapsed := .real .zero }

/-- A setup in which the calls end as listed. -/
def setup (endings : List Ending) : Setup Nat := { oracle := Oracle.scripted endings }

def run (endings : List Ending) : Progress Nat :=
  Run.analyze (setup endings) clock site "/p" ["*.js"] [] { state := 0 } {}

theorem exists_scan (endings : List Ending) : ∃ scan,
    Scan.run site "/p" ⟨["*.js"], [], (setup endings).limits.bounds.maxFileSize⟩ = .ok scan ∧
      (Run.plan (setup endings) scan).batches.length = 1 := by
  have h : ((Scan.run site "/p" ⟨["*.js"], [], 102400⟩).toOption.map fun scan =>
      (Plan.ofUsable ⟨200, 20, 102400, 102400⟩ (prioritize scan.files)).batches.length) =
        some 1 := by
    decide +kernel
  obtain ⟨scan, hscan, hlen⟩ := exists_of_map_eq_some h
  exact ⟨scan, hscan, hlen⟩

end Sample

end PerfReview
