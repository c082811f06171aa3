import PerfReview.Json.Printer
import PerfReview.Report.Basic

/-!
# The report as a document

The JSON form of a report. It holds every finding, as a whole and file by file.
-/

namespace PerfReview

namespace Issue

def toJson (i : Issue) : Json := .object [
  ("severity", .text i.severity.name), ("file", .text i.file), ("start_line", .int i.startLine),
  ("end_line", .int i.endLine), ("description", .text i.description), ("impact", .text i.impact),
  ("code_context", .text i.codeContext), ("solution", .text i.solution),
  ("expected_improvement", .text i.expectedImprovement)]

end Issue

namespace Findings

def fields (f : Findings) : List (String × Json) :=
  Severity.all.map fun s => (s.listName, .list ((f.ofSeverity s).map (·.toJson)))

def toJson (f : Findings) : Json := .object f.fields

end Findings

namespace Audit

def sectionsJson (a : Audit) : Json := .object (a.sections.map fun (name, text) => (name, .text text))

def toJson (a : Audit) : Json :=
  .object [("metrics", .text a.metrics), ("analysis", a.sectionsJson)]

end Audit

namespace Report

def metadata (r : Report) : Json := .object [
  ("target", .text r.result.target), ("timestamp", .text r.timestamp),
  ("duration", r.duration.toJson), ("analyzed_files", .int r.result.analyzed.length),
  ("batch_count", .int r.result.batchCount), ("rejected_records", .int r.result.rejectedCount),
  ("cancelled", .bool r.result.cancelled),
  ("limits", (r.limits.map (·.toJson)).getD .null)]

def byFileJson (r : Report) : Json :=
  .object (r.result.byFile.map fun (path, f) => (path, f.toJson))

def toJson (r : Report) : Json := .object <|
  [("metadata", r.metadata), ("codeAnalysis", r.result.findings.toJson),
    ("fileIssues", r.byFileJson), ("skippedFiles", Json.texts r.result.skipped),
    ("failedBatches", Json.texts r.result.failed)] ++
  r.findings?.toList.map fun a => ("audit", a.toJson)

def document (r : Report) : String := r.toJson.print ++ "\n"

end Report

end PerfReview
