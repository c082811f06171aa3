import PerfReview.Report.Basic

/-!
# The report as a page

The HTML form of a report: a sequence of fragments, some of them markup and some values. Values are
written with references for the five characters that mean something in markup, so that no value adds
a tag to the page.
-/

namespace PerfReview.Report

/-- A part of a page. -/
inductive Fragment where
  | markup (s : String)
  | value (s : String)
  deriving DecidableEq, Repr

namespace Fragment

/-- The reference that stands for a character in a value. -/
def reference? : Char → Option String
  | '&' => some "&amp;"
  | '<' => some "&lt;"
  | '>' => some "&gt;"
  | '\x22' => some "&#34;"
  | '\x27' => some "&#39;"
  | _ => none

def escape (s : List Char) : List Char :=
  s.flatMap fun c => ((reference? c).map String.toList).getD [c]

def text : Fragment → String
  | markup s => s
  | value s => String.ofList (escape s.toList)

end Fragment

namespace Page

def line (text : String) : List Fragment := [.markup (text ++ "\n")]

def filled (before value after : String) : List Fragment :=
  [.markup before, .value value, .markup (after ++ "\n")]

def lines (ls : List String) : List Fragment := ls.flatMap line

def head : List String := [
  "<!DOCTYPE html>",
  "<html lang=\"en\">",
  "<head>",
  "  <meta charset=\"utf-8\">",
  "  <meta name=\"viewport\" content=\"width=device-width, initial-scale=1\">",
  "  <title>Performance Analysis Report</title>",
  "  <style>",
  "    :root \x7b",
  "      --primary: #2563eb;",
  "      --critical: #dc2626;",
  "      --warning: #d97706;",
  "      --suggestion: #3b82f6;",
  "      --background: #f8fafc;",
  "      --text: #1e293b;",
  "      --text-light: #475569;",
  "      --border: #e2e8f0;",
  "      --code-bg: #1e293b;",
  "      --code-text: #e2e8f0;",
  "      --card-bg: #ffffff;",
  "    \x7d",
  "    body \x7b margin: 0; font-family: system-ui, sans-serif; background: var(--background); color: var(--text); line-height: 1.6; \x7d",
  "    .container \x7b max-width: 1100px; margin: 0 auto; padding: 2rem; \x7d",
  "    .metadata \x7b color: var(--text-light); \x7d",
  "    .alert \x7b border-left: 4px solid var(--warning); background: var(--card-bg); padding: 0.75rem 1rem; \x7d",
  "    .summary \x7b display: grid; grid-template-columns: repeat(3, 1fr); gap: 1rem; margin: 2rem 0; \x7d",
  "    .summary-card, .metric-card, .card \x7b background: var(--card-bg); border: 1px solid var(--border); border-radius: 0.5rem; padding: 1rem; \x7d",
  "    .summary-number \x7b font-size: 2rem; font-weight: 700; \x7d",
  "    .summary-card.critical .summary-number \x7b color: var(--critical); \x7d",
  "    .summary-card.warning .summary-number \x7b color: var(--warning); \x7d",
  "    .summary-card.suggestion .summary-number \x7b color: var(--suggestion); \x7d",
  "    .metrics \x7b display: grid; grid-template-columns: repeat(auto-fill, minmax(200px, 1fr)); gap: 1rem; \x7d",
  "    .metric-title \x7b color: var(--text-light); font-size: 0.875rem; \x7d",
  "    .metric-value \x7b font-size: 1.25rem; font-weight: 600; \x7d",
  "    .tabs \x7b display: flex; gap: 0.5rem; border-bottom: 2px solid var(--border); margin-bottom: 2rem; \x7d",
  "    .tab \x7b padding: 0.75rem 1.5rem; border: none; background: transparent; color: var(--text-light); cursor: pointer; font-weight: 500; \x7d",
  "    .tab.active \x7b color: var(--primary); border-bottom: 2px solid var(--primary); \x7d",
  "    .tab-content \x7b display: none; \x7d",
  "    .tab-content.active \x7b display: block; \x7d",
  "    .issue \x7b background: var(--card-bg); border: 1px solid var(--border); border-left: 4px solid var(--border); border-radius: 0.5rem; padding: 1rem 1.25rem; margin-bottom: 1rem; \x7d",
  "    .issue.critical \x7b border-left-color: var(--critical); \x7d",
  "    .issue.warning \x7b border-left-color: var(--warning); \x7d",
  "    .issue.suggestion \x7b border-left-color: var(--suggestion); \x7d",
  "    .issue-location \x7b font-family: ui-monospace, monospace; font-weight: 600; \x7d",
  "    pre \x7b background: var(--code-bg); color: var(--code-text); padding: 1rem; border-radius: 0.5rem; overflow-x: auto; \x7d",
  "    .empty \x7b color: var(--text-light); font-style: italic; \x7d",
  "  </style>",
  "</head>"]

def foot : List String := [
  "  <script>",
  "    document.querySelectorAll('.tab').forEach(tab => \x7b",
  "      tab.addEventListener('click', () => \x7b",
  "        document.querySelectorAll('.tab, .tab-content').forEach(el => el.classList.remove('active'));",
  "        tab.classList.add('active');",
  "        document.getElementById(tab.dataset.tab).classList.add('active');",
  "      \x7d);",
  "    \x7d);",
  "  </script>",
  "</body>",
  "</html>"]

def header (r : Report) : List Fragment :=
  lines ["<body>", "  <div class=\"container\">", "    <div class=\"header\">",
    "      <h1>🔍 Performance Analysis Report</h1>", "      <div class=\"metadata\">"] ++
  filled "        <p>Target: <code>" r.result.target "</code></p>" ++
  filled "        <p>Generated on: " r.timestamp "</p>" ++
  filled "        <p>Analysis Duration: " r.duration.text "s</p>" ++
  filled "        <p>Files analysed: " r.coverage "</p>" ++
  line "      </div>" ++
  (if r.result.cancelled then filled "      <p class=\"alert\">" cancelledText "</p>" else []) ++
  lines ["    </div>", ""]

def summaryCard (r : Report) (s : Severity) : List Fragment :=
  filled "      <div class=\"summary-card " s.name "\">" ++
  filled "        <div class=\"summary-number\">" (Number.natText (r.issues s).length) "</div>" ++
  filled "        <div class=\"summary-label\">" s.title "</div>" ++
  line "      </div>"

def summary (r : Report) : List Fragment :=
  line "    <div class=\"summary\">" ++ Severity.all.flatMap (summaryCard r) ++
  lines ["    </div>", ""]

/-- The run has something to tell besides its findings. -/
def hasDetails (r : Report) : Bool := !r.result.skipped.isEmpty || !r.result.failed.isEmpty

def tabs (r : Report) : List Fragment :=
  line "    <div class=\"tabs\">" ++
  filled "      <button class=\"tab active\" data-tab=\"code-analysis\">🧠 Code Analysis ("
    (Number.natText r.result.total) ")</button>" ++
  (if r.findings?.isSome then
    line "      <button class=\"tab\" data-tab=\"runtime-audit\">🌟 Runtime Audit</button>"
  else []) ++
  (if hasDetails r then
    line "      <button class=\"tab\" data-tab=\"run-details\">📋 Run Details</button>"
  else []) ++
  lines ["    </div>", ""]

def issue (i : Issue) : List Fragment :=
  filled "      <div class=\"issue " i.severity.name "\">" ++
  [.markup "        <p class=\"issue-location\">", .value i.severity.marker, .markup " ",
    .value i.location, .markup "</p>\n"] ++
  filled "        <p><strong>Description:</strong> " i.description "</p>" ++
  filled "        <p><strong>Impact:</strong> " i.impact "</p>" ++
  filled "        <pre><code>" i.codeContext "</code></pre>" ++
  filled "        <p><strong>Solution:</strong> " i.solution "</p>" ++
  filled "        <p><strong>Expected Improvement:</strong> " i.expectedImprovement "</p>" ++
  line "      </div>"

def severitySection (r : Report) (s : Severity) : List Fragment :=
  filled "      <h3>" s.title "</h3>" ++
  match r.issues s with
  | [] => filled "      <p class=\"empty\">" s.emptyText "</p>"
  | is => is.flatMap issue

def findings (r : Report) : List Fragment :=
  line "    <div class=\"tab-content active\" id=\"code-analysis\">" ++
  Severity.all.flatMap (severitySection r) ++ lines ["    </div>", ""]

/-- A line of the metrics with a title and a value around its first colon. -/
def card? (metric : String) : Option (String × String) :=
  match metric.toList.span (· ≠ ':') with
  | (_, []) => none
  | (title, _ :: value) =>
    let title := String.ofList (Text.trim title)
    let value := String.ofList (Text.trim value)
    if title = "" || value = "" then none else some (title, value)

def cards (metrics : String) : List (String × String) := (Text.lines metrics).filterMap card?

def card (title value : String) : List Fragment :=
  line "        <div class=\"metric-card\">" ++
  filled "          <div class=\"metric-title\">" title "</div>" ++
  filled "          <div class=\"metric-value\">" value "</div>" ++
  line "        </div>"

/-- The metrics as cards, or as they are where no line makes a card. -/
def metrics (text : String) : List Fragment :=
  if !(cards text).isEmpty then
    line "      <div class=\"metrics\">" ++ (cards text).flatMap (fun (t, v) => card t v) ++
    line "      </div>"
  else if text ≠ "" then filled "      <pre>" text "</pre>"
  else []

def auditSection (name text : String) : List Fragment :=
  line "      <div class=\"card\">" ++
  filled "        <h3>" name "</h3>" ++
  filled "        <p>" text "</p>" ++
  line "      </div>"

def audit (a : Audit) : List Fragment :=
  line "    <div class=\"tab-content\" id=\"runtime-audit\">" ++ metrics (Text.strip a.metrics) ++
  a.sections.flatMap (fun (name, text) => auditSection name text) ++ line "    </div>"

/-- A list under a heading, left out where it is empty. -/
def list (title : String) (item : String → List Fragment) (items : List String) : List Fragment :=
  if items.isEmpty then []
  else
    filled "      <h3>" title "</h3>" ++ line "      <ul>" ++ items.flatMap item ++
    line "      </ul>"

def details (r : Report) : List Fragment :=
  line "    <div class=\"tab-content\" id=\"run-details\">" ++
  list "Skipped Files" (fun path => filled "        <li><code>" path "</code></li>")
    r.result.skipped ++
  list "Failed Batches" (fun label => filled "        <li>" label "</li>") r.result.failed ++
  line "    </div>"

def body (r : Report) : List Fragment :=
  header r ++ summary r ++ tabs r ++ findings r ++ r.findings?.toList.flatMap audit ++ line "" ++
  (if hasDetails r then details r else []) ++ line "  </div>" ++ line "" ++ lines foot

end Page

def page (r : Report) : List Fragment := Page.lines Page.head ++ Page.body r

def joined (fs : List Fragment) : String := String.join (fs.map (·.text))

def html (r : Report) : String := joined r.page

end PerfReview.Report
