import PerfReview.Report.Basic

/-!
# The report as Markdown
-/

namespace PerfReview.Report

namespace Markdown

def fence : String := "\x60\x60\x60"

/-- Text between back quotes. -/
def code (s : String) : String := s!"\x60{s}\x60"

def findingsLines (a : Audit) : List String :=
  ["", "## 🌟 Runtime Audit", "", "### Metrics", fence, Text.strip a.metrics, fence] ++
    a.sections.flatMap fun (name, text) => ["", s!"### {name}", text]

def issueLines (i : Issue) : List String :=
  let marker := i.severity.marker
  ["", s!"{marker} {code i.location}", "", s!"- **Description:** {i.description}",
    s!"- **Impact:** {i.impact}", "", fence, i.codeContext, fence, "",
    s!"**Solution:** {i.solution}", "", s!"**Expected Improvement:** {i.expectedImprovement}"]

def sectionLines (s : Severity) (issues : List Issue) : List String :=
  ["", s!"### {s.title}"] ++
    if issues.isEmpty then [s!"_{s.emptyText}_"] else issues.flatMap issueLines

/-- A list under a heading, left out where it is empty. -/
def listLines (title : String) (items : List String) : List String :=
  if items.isEmpty then [] else ["", s!"## {title}"] ++ items.map fun s => s!"- {s}"

def lines (r : Report) : List String :=
  ["# Performance Analysis Report", "", s!"Target: {code r.result.target}",
    s!"Generated on: {r.timestamp}", s!"Analysis Duration: {r.duration.text}s",
    s!"Files analysed: {r.coverage}"] ++
  (if r.result.cancelled then ["", s!"> {cancelledText}"] else []) ++
  r.findings?.toList.flatMap findingsLines ++
  ["", "## 🧠 Code Analysis"] ++
  Severity.all.flatMap (fun s => sectionLines s (r.issues s)) ++
  listLines "Skipped Files" r.result.skipped ++
  listLines "Failed Batches" r.result.failed

end Markdown

def markdown (r : Report) : String := String.join ((Markdown.lines r).map (· ++ "\n"))

end PerfReview.Report
