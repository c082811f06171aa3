import PerfReview.Text.LetterCase
import PerfReview.Text.Search

/-!
# Groups of source files

The kinds of source file that are reviewed together. A file has at most one: its extension decides,
except that a script whose path mentions React is a component.
-/

namespace PerfReview

inductive Group where
  | component
  | template
  | javascript
  | typescript
  | stylesheet
  | markup
  deriving DecidableEq, Repr

namespace Group

/-- All groups, in the order in which they are reviewed. -/
def all : List Group := [component, template, javascript, typescript, stylesheet, markup]

def name : Group → String
  | component => "component"
  | template => "template"
  | javascript => "javascript"
  | typescript => "typescript"
  | stylesheet => "stylesheet"
  | markup => "markup"

def label : Group → String
  | component => "React/JSX component"
  | template => "Vue/Svelte/Astro component"
  | javascript => "JavaScript"
  | typescript => "TypeScript"
  | stylesheet => "stylesheet"
  | markup => "HTML"

def ofName? (s : String) : Option Group := all.find? (·.name = s)

/-- The group that a small-letter extension stands for. -/
def ofExtension? (extension : String) : Option Group :=
  if extension ∈ [".jsx", ".tsx"] then some component
  else if extension ∈ [".vue", ".svelte", ".astro"] then some template
  else if extension ∈ [".ts", ".mts", ".cts"] then some typescript
  else if extension ∈ [".js", ".mjs", ".cjs"] then some javascript
  else if extension ∈ [".css", ".scss", ".sass", ".less"] then some stylesheet
  else if extension ∈ [".html", ".htm"] then some markup
  else none

def isScript (g : Group) : Bool := g = typescript || g = javascript

/-- The group of a file, if its kind is known. -/
def classify (path extension : String) : Option Group :=
  (ofExtension? (Text.small extension)).map fun g =>
    if g.isScript && Text.contains (Text.small path) "react" then component else g

theorem mem_all (g : Group) : g ∈ all := by cases g <;> decide

theorem nodup_all : all.Nodup := by decide

end Group

end PerfReview
