import PerfReview.Assoc
import PerfReview.Audit
import PerfReview.Issue
import PerfReview.Listing
import PerfReview.Plan

/-!
# Templates

The texts that requests are made of, by the names of their files. The analysis template lists the
files of a batch with numbered lines; the expert template and those of a custom folder are fixed
texts. A file of the custom folder stands in for the bundled one of its name. A registry gives each
key a template.
-/

namespace PerfReview.Prompt

inductive Template where
  /-- The request to analyse the files of a batch. -/
  | analysis
  /-- The role of the model. -/
  | expert
  | fixed (text : String)
  deriving DecidableEq, Repr

structure Subject where
  group : Group
  files : List Source
  /-- The audit findings as they are shown, empty where there are none. -/
  findings : String
  deriving DecidableEq, Repr

/-- Why there is no text. -/
inductive Fault where
  | missingTemplate (key file : String)
  | unknownKey (key : String)
  /-- The analysis template has nothing to analyse. -/
  | noSubject
  deriving DecidableEq, Repr

namespace Fault

def message : Fault → String
  | missingTemplate key file => s!"Prompt template '{file}' for '{key}' not found"
  | unknownKey key => s!"Prompt not found for key: {key}"
  | noSubject => "'group_label' is undefined"

end Fault

def analysisKey : String := "code_analysis"

def expertKey : String := "performance_expert"

/-- The keys of the bundled templates with their files. -/
def bundledKeys : List (String × String) :=
  [(analysisKey, "code_analysis.j2"), (expertKey, "performance_expert.j2")]

def bundledFiles : List (String × Template) :=
  [("code_analysis.j2", .analysis), ("performance_expert.j2", .expert)]

def fence : String := "\x60\x60\x60"

/-- What the request says before it comes to the files. -/
def opening (g : Group) : List String := [
  s!"Analyze the following {g.label} files for performance issues.",
  "",
  "Focus on render performance, bundle size, memory leaks, network usage, CSS cost, JavaScript hot paths, and asset handling.",
  "Report every issue using exactly this format, one record per issue, separated by a blank line:",
  "",
  s!"{Severity.critical.marker} path/to/file.ext:START-END",
  "Description: what is wrong",
  "Impact: why it hurts performance",
  "Code Context:",
  fence,
  "the offending lines copied verbatim",
  fence,
  "Solution: the concrete fix, code allowed, may span several lines",
  "Expected Improvement: the estimated gain",
  "",
  s!"Use {Severity.critical.marker} for critical issues, {Severity.warning.marker} for warnings and {Severity.suggestion.marker} for suggestions.",
  "START and END are the 1-based line numbers shown in the listings below and must not exceed the file's line count.",
  "Only use paths from this list:",
  "",
  "Files you may reference:"]

/-- The entry of a file in the list of files. -/
def manifestLine (f : Source) : String := s!"- {f.relative} ({Number.natText f.lineCount} lines)"

def listing (f : Source) : List String :=
  [s!"=== {f.relative} ===", Listing.numbered f.text, ""]

def findingsPart (findings : String) : List String :=
  if findings = "" then [] else ["Runtime audit findings to prioritise:", findings]

/-- The parts of the request to analyse files, one below the other. -/
def analysisParts (s : Subject) : List String :=
  opening s.group ++ s.files.map manifestLine ++ [""] ++ s.files.flatMap listing ++
    findingsPart s.findings

def analysisText (s : Subject) : String :=
  Text.strip (String.intercalate "\n" (analysisParts s))

def expertText : String :=
  "You are a performance optimization expert for frontend web applications. Only reference files and line numbers that appear in the numbered listings you are given. Never make claims about code you cannot see."

def Template.text (subject : Option Subject) : Template → Except Fault String
  | .analysis =>
    match subject with
    | some s => .ok (analysisText s)
    | none => .error .noSubject
  | .expert => .ok expertText
  | .fixed text => .ok (Text.strip (String.ofList (Text.unifyBreaks text.toList)))

/-- The name of a template file without idle parts; one that leads upwards is no name. -/
def fileName? (name : String) : Option String :=
  let parts := (Text.splitOn '/' name.toList).map String.ofList
  if ".." ∈ parts then none
  else some (String.intercalate "/" (parts.filter fun p => p ≠ "" && p ≠ "."))

/-- The files of a custom folder by their names without idle parts. -/
def folderFiles (folder : List (String × String)) : List (String × String) :=
  Assoc.ofPairs (folder.map fun (name, text) =>
    (String.intercalate "/" (Path.level (Path.parts name)), text))

/-- The template of a file, from the custom folder if it has the file. -/
def template? (folder : List (String × String)) (file : String) : Option Template :=
  (fileName? file).bind fun name =>
    match Assoc.get? (folderFiles folder) name with
    | some text => some (.fixed text)
    | none => Assoc.get? bundledFiles name

structure Registry where
  entries : List (String × Template)
  deriving DecidableEq, Repr

namespace Registry

/-- The templates of keys with their files; without keys, the bundled ones. -/
def make? (folder : List (String × String)) (keys : List (String × String)) :
    Except Fault Registry := do
  let keys := if keys.isEmpty then bundledKeys else keys
  let entries ← (Assoc.ofPairs keys).mapM fun (key, file) =>
    match template? folder file with
    | some t => .ok (key, t)
    | none => .error (.missingTemplate key file)
  return ⟨entries⟩

def bundled : Registry := ⟨[(analysisKey, .analysis), (expertKey, .expert)]⟩

def keys (r : Registry) : List String := r.entries.map (·.1)

def has (r : Registry) (key : String) : Bool := key ∈ r.keys

def render (r : Registry) (key : String) (subject : Option Subject) : Except Fault String :=
  match Assoc.get? r.entries key with
  | some t => t.text subject
  | none => .error (.unknownKey key)

end Registry

end PerfReview.Prompt
