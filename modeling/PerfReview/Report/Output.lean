import PerfReview.Report.Document
import PerfReview.Report.Markdown
import PerfReview.Report.Page

/-!
# Writing reports

The forms of a report, the name of its file, and the writing of it. A destination that is given wins
over the folder and the name of the settings.
-/

namespace PerfReview

inductive Format where
  | md
  | html
  | json
  deriving DecidableEq, Repr

namespace Format

def all : List Format := [md, html, json]

def name : Format → String
  | md => "md"
  | html => "html"
  | json => "json"

def ofName? (s : String) : Option Format := all.find? (·.name = s)

end Format

/-- How and where a report is written. -/
structure Output where
  format : String := "md"
  folder : Option String := none
  filename : String := "performance-report"
  stamped : Bool := true
  deriving DecidableEq, Repr

namespace Output

def filenameAt (o : Output) (now : Moment) : String :=
  let stem := if o.stamped then s!"{o.filename}-{now.stamp}" else o.filename
  s!"{stem}.{o.format}"

/-- The file that a report is written to, below the folder `base` unless the settings lead away. -/
def destination (o : Output) (site : Site) (base : String) (now : Moment) :
    Except PathFault String := do
  let folder ←
    match o.folder with
    | none | some "" => pure base
    | some f => (site.expand f).map (Path.join base)
  return Path.join folder (o.filenameAt now)

end Output

/-- Why a report was not written. -/
inductive WriteFault where
  | unsupported (format : String)
  | unusable (f : PathFault)
  /-- The report holds an integer that is too long to be written. -/
  | tooLong
  deriving DecidableEq, Repr

namespace WriteFault

def message : WriteFault → String
  | unsupported format => s!"Unsupported report format: {format}"
  | unusable f => f.message
  | tooLong => Number.tooLongToWriteMessage

end WriteFault

namespace Report

def text (r : Report) : Format → String
  | .md => r.markdown
  | .html => r.html
  | .json => r.document

/-- The text of a report, unless it holds an integer that is too long to be written. -/
def render (r : Report) (f : Format) : Except WriteFault String :=
  if f = .json && r.toJson.toValue.isUnwritable then .error .tooLong else .ok (r.text f)

/-- What is logged when a report has been written. -/
def writtenLog (path : String) : Log.Entry := .info "report" s!"Report written to {path}"

/-- The file that a report is written to: the given one, or the one that the settings name. -/
def place (r : Report) (o : Output) (site : Site) (base : String) (given : Option String) :
    Except PathFault String :=
  match given with
  | some path => .ok path
  | none => o.destination site base r.now

def write (r : Report) (o : Output) (site : Site) (base : String) (given : Option String) :
    Change WriteFault String := do
  match Format.ofName? o.format with
  | none => throw (.unsupported o.format)
  | some format =>
    let path ← (r.place o site base given).mapError WriteFault.unusable
    let text ← r.render format
    (site.writeText path text).adapt fun
      | .inl f => .unusable f
      | .inr u => .unusable (.surrogates u)
    return path

end Report

end PerfReview
