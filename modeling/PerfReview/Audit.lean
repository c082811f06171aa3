import PerfReview.Json.Reader
import PerfReview.Log.Entry
import PerfReview.Site
import PerfReview.Text.Blank
import PerfReview.Value

/-!
# Audit findings

What an audit of the running page found: a summary of its metrics and named sections of analysis.
They come from a JSON document in one of two forms, one with these two fields and one that is the
full result of an audit tool, whose summary is made here.
-/

namespace PerfReview

structure Audit where
  metrics : String
  sections : List (String × String)
  deriving DecidableEq, Repr

/-- Why audit findings could not be loaded. -/
inductive AuditFault where
  | notFound (path : String)
  | unreadable (path : String) (fault : DiskFault)
  | notJson (path : String)
  | notObject (path : String)
  | undecodable (m : Text.Malformed)
  | tooLong (digits : Nat)
  | tooDeep (isList : Bool)
  /-- The path of the file could not be used. -/
  | unusable (f : PathFault)
  /-- A field of an audit result that should be an object is something else. -/
  | notAnObject (found : Json)
  /-- The score is an integer beyond all floating-point numbers. -/
  | scoreTooLarge

namespace AuditFault

/-- The name of the type of a value, as messages give it. -/
def typeName : Json → String
  | .null => "NoneType"
  | .bool _ => "bool"
  | .int _ => "int"
  | .float _ => "float"
  | .text _ => "str"
  | .list _ => "list"
  | .object _ => "dict"

def message : AuditFault → String
  | notFound path => s!"Audit context file not found: {path}"
  | unreadable path fault => s!"Unable to read audit context {path}: {fault.message path}"
  | notJson path => s!"Unable to read audit context {path}"
  | notObject path => s!"Audit context {path} must contain a JSON object"
  | undecodable m => m.message
  | tooLong digits => Number.tooLongMessage digits
  | tooDeep isList => Json.tooDeepMessage isList
  | unusable f => f.message
  | notAnObject found => s!"'{typeName found}' object has no attribute 'get'"
  | scoreTooLarge => "int too large to convert to float"

end AuditFault

namespace Audit

/-- There is nothing in the findings but white space. -/
def isEmpty (a : Audit) : Bool :=
  Text.isAllBlank a.metrics && a.sections.all fun (_, text) => Text.isAllBlank text

/-- The parts of the findings that are not blank. -/
def parts (a : Audit) : List String :=
  (if Text.isAllBlank a.metrics then [] else [s!"Metrics:\n{Text.strip a.metrics}"]) ++
    a.sections.filterMap fun (name, text) =>
      if Text.isAllBlank text then none else some s!"{name}:\n{Text.strip text}"

def render (a : Audit) : String := String.intercalate "\n\n" a.parts

/-- The audits of the summary, with the labels of their lines. -/
def metricLabels : List (String × String) := [
  ("first-contentful-paint", "First Contentful Paint"),
  ("largest-contentful-paint", "Largest Contentful Paint"),
  ("total-blocking-time", "Total Blocking Time"),
  ("cumulative-layout-shift", "Cumulative Layout Shift"),
  ("speed-index", "Speed Index"),
  ("interactive", "Time to Interactive")]

/-- A field that has to be an object unless it stands for nothing. -/
def objectAt (j : Json) (name : String) : Except AuditFault Json :=
  let v := j.fieldOrNull name
  if !v.isSubstantial then .ok (.object [])
  else if v.isObject then .ok v
  else .error (.notAnObject v)

/-- A score between zero and one in percent. -/
def percent (score : Json) : Except AuditFault String :=
  let times100 (x : Number.Binary64) := (x.scale 100 1).wholeText
  match score with
  | .bool b => .ok (if b then "100" else "0")
  | .int n =>
    match Number.Binary64.ofInt? n with
    | some x => .ok (times100 x)
    | none => .error .scoreTooLarge
  | .float x => .ok (times100 x)
  | _ => .ok "0"

def metricLine (audits : Json) (name label : String) : String :=
  let shown := (audits.fieldOrNull name).fieldOrNull "displayValue"
  label ++ ": " ++ if shown.isSubstantial then shown.display else "N/A"

def summary (report : Json) : Except AuditFault String := do
  let categories ← objectAt report "categories"
  let performance ← objectAt categories "performance"
  let score ← percent (performance.fieldOrNull "score")
  let audits ← objectAt report "audits"
  return String.intercalate "\n"
    (s!"Performance Score: {score}%" :: metricLabels.map fun (name, label) => metricLine audits name label)

/-- The sections of the field with the analysis. -/
def sectionsOf : Json → List (String × String)
  | .object fields => fields.filterMap fun (name, v) =>
    match v with
    | .null => none
    | v => some (name, v.display)
  | .text s => [("Analysis", s)]
  | _ => []

def ofJson (j : Json) : Except AuditFault Audit :=
  if (j.field? "audits").isSome && (j.field? "categories").isSome then
    (summary j).map (⟨·, []⟩)
  else
    let metrics :=
      match j.fieldOrNull "metrics" with
      | .null => ""
      | v => v.display
    .ok ⟨metrics, sectionsOf (j.fieldOrNull "analysis")⟩

/-- Loads the findings of a file; messages name it by `path`. -/
def load [Json.Room] (site : Site) (path : String) : Except AuditFault Audit :=
  match site.readText path with
  | .error (.inl (.disk .missing _)) => .error (.notFound path)
  | .error (.inl (.disk fault _)) => .error (.unreadable path fault)
  | .error (.inl f) => .error (.unusable f)
  | .error (.inr m) => .error (.undecodable m)
  | .ok text =>
    match Json.read text with
    | .error .malformed => .error (.notJson path)
    | .error (.tooLong digits) => .error (.tooLong digits)
    | .error (.tooDeep isList) => .error (.tooDeep isList)
    | .ok j => if j.isObject then ofJson j else .error (.notObject path)

def loadLog (path : String) : Log.Entry := .debug "audit" s!"Loaded audit context from {path}"

end Audit

end PerfReview
