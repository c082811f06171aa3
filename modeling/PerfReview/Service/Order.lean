import PerfReview.Audit
import PerfReview.Limits

/-!
# Orders

What a client of the service asks for: a folder to review, limits, patterns and audit findings. An
order is read from a JSON body; a body that does not have the form of one is no order.
-/

namespace PerfReview.Service

/-- What the values of a body stand for where numbers are asked for. -/
class Coercion where
  int? : Json → Option Int
  real? : Json → Option Number.Binary64

structure Order where
  path : String
  /-- The limits that are set, by name. -/
  limits : List (String × Json)
  includes : Option (List String)
  ignores : Option (List String)
  audit : Option Audit

namespace Order

variable [Coercion]

/-- The value of a field that may be missing or null. -/
def optional {α : Type} (read : Json → Option α) (j : Json) (name : String) : Option (Option α) :=
  match j.fieldOrNull name with
  | .null => some none
  | v => (read v).map some

def readTexts (j : Json) : Option (List String) := j.list?.bind (·.mapM Json.text?)

/-- The findings of an order; what is missing of them is empty. -/
def readAudit (j : Json) : Option Audit := do
  let fields ← j.object?
  let metrics ← ((Assoc.get? fields "metrics").getD (.text "")).text?
  let sections ← ((Assoc.get? fields "analysis").getD (.object [])).object?
  let sections ← sections.mapM fun (name, v) => v.text?.map (name, ·)
  return ⟨metrics, sections⟩

def readCount (j : Json) (name : String) : Option (List (String × Json)) :=
  (optional Coercion.int? j name).map fun n => (n.map fun n => (name, Json.int n)).toList

def ofJson? (j : Json) : Option Order := do
  let _ ← j.object?
  let path ← (j.fieldOrNull "path").text?
  let counts ← ["max_files", "batch_size", "max_file_size", "token_budget"].mapM (readCount j)
  let delay ← optional Coercion.real? j "batch_delay"
  let includes ← optional readTexts j "include"
  let ignores ← optional readTexts j "ignore"
  let audit ← optional readAudit j "audit"
  let limits := counts.flatten ++ (delay.map fun x => ("batch_delay", Json.float x)).toList
  return { path, limits, includes, ignores, audit }

end Order

end PerfReview.Service
