import PerfReview.Prompt.Template
import PerfReview.Site

/-!
# Requests

The request that a batch is sent in: a system text that gives the model its role and a user text
that lists the files.
-/

namespace PerfReview

namespace Batch

/-- Why a file of the batch cannot even be asked for. A file that cannot be read for any other reason
has an empty text. -/
def fault? (b : Batch) : Option PathFault :=
  b.files.findSome? fun f =>
    match Path.check f.path with
    | .error fault => some fault
    | .ok () => none

/-- The files before the first that cannot be asked for. -/
def untilFault (b : Batch) : Batch :=
  { b with files := b.files.takeWhile fun f => (Path.check f.path).isOk }

end Batch

structure Request where
  system : String
  prompt : String
  deriving DecidableEq, Repr

namespace Request

def subject (b : Batch) (audit : Option Audit) : Prompt.Subject where
  group := b.group
  files := b.files
  findings := (audit.map (·.render)).getD ""

/-- The request for a batch from the templates of a registry. -/
def make? (r : Prompt.Registry) (b : Batch) (audit : Option Audit) :
    Except Prompt.Fault Request := do
  let prompt ← r.render Prompt.analysisKey (some (subject b audit))
  let system ← r.render Prompt.expertKey none
  return ⟨system, prompt⟩

/-- The request for a batch from the bundled templates. -/
def ofBatch (b : Batch) (audit : Option Audit) : Request where
  system := Prompt.expertText
  prompt := Prompt.analysisText (subject b audit)

/-- The request for a batch whose files are read for it. -/
def read? (b : Batch) (audit : Option Audit) : Except PathFault Request :=
  match b.fault? with
  | some fault => .error fault
  | none => .ok (ofBatch b audit)

theorem make?_bundled (b : Batch) (audit : Option Audit) :
    make? .bundled b audit = .ok (ofBatch b audit) := rfl

end Request

end PerfReview
