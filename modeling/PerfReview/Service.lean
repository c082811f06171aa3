import PerfReview.Client
import PerfReview.Json.Reader
import PerfReview.Report.Document
import PerfReview.Run
import PerfReview.Service.Order
import PerfReview.Text.Wide

/-!
# The service

The service answers requests over the network: one tells that it is up, the other reviews a folder
and gives the report. Every review has a connection to the model of its own. Limits that cannot be
are the fault of the client, and so is a folder that is not there; a fault that the service does not
foresee ends the request without an answer.
-/

namespace PerfReview.Service

variable [Json.Room] [Yaml.Library] [Coercion]

structure Request where
  method : String
  path : String
  body : String
  deriving DecidableEq, Repr

/-- A fault that the service does not foresee. -/
inductive Fault where
  | choice (f : ChoiceFault)
  | run (f : RunFault)
  | limits (f : LimitsFault)
  /-- The answer holds an integer that is too long to be written. -/
  | tooLong
  /-- The answer holds surrogates. -/
  | surrogates (u : Text.Unwritable)

namespace Fault

def message : Fault → String
  | choice f => f.message
  | run f => f.message
  | limits f => f.message
  | tooLong => Number.tooLongToWriteMessage
  | surrogates u => u.message

end Fault

/-- What becomes of a request. -/
inductive Reply where
  | json (status : Nat) (body : Json)
  /-- The client is sent to the path without the slashes at its end. -/
  | elsewhere
  /-- The body is no order. -/
  | invalid
  | crash (f : Fault)

namespace Reply

/-- The answer to a request that fails with a reason. -/
def failure (status : Nat) (reason : String) : Reply :=
  .json status (.object [("detail", .text reason)])

end Reply

/-- The service is set up with the way to the model and the place in the file system. -/
structure Setup (σ : Type) where
  connect : Except ChoiceFault (Oracle σ)
  site : Site

/-- What changes from request to request: the state of the model, and the clock. -/
structure State (σ : Type) where
  model : σ
  clock : Clock

/-- The way to the model that the environment names. -/
def connection {σ : Type} (env : Environment) (site : Site) (network : Http.Network σ) :
    Except ChoiceFault (Oracle (Client.Line σ)) :=
  (Client.make? env site {}).map fun c => c.oracle network

/-- The answer that carries a report; for a number that is not finite it has null. -/
def success (report : Report) : Reply :=
  let r := report.result
  let body : Json := .object [
    ("status", .text (if r.cancelled then "cancelled" else "ok")),
    ("critical", .int r.findings.critical.length), ("warnings", .int r.findings.warnings.length),
    ("suggestions", .int r.findings.suggestions.length), ("report", report.toJson.withFinite)]
  if body.toValue.isUnwritable then .crash .tooLong
  else
    match Text.unwritable? body.dense with
    | some u => .crash (.surrogates u)
    | none => .json 200 body

variable {σ : Type}

def review (s : Setup σ) (oracle : Oracle σ) (state : State σ) (o : Order) : Reply × State σ :=
  match ({} : Limits).override o.limits with
  | .error .unwritable => (.crash (.limits .unwritable), state)
  | .error f => (.failure 400 f.message, state)
  | .ok limits =>
    let setup : PerfReview.Setup σ := { oracle, limits, audit := o.audit }
    let p := Run.analyze setup state.clock s.site o.path (o.includes.getD defaultIncludes)
      (o.ignores.getD defaultIgnores) ⟨state.model, [], false⟩ {}
    let reply : Reply :=
      match p.outcome with
      | .error (.target (.unusable f)) => .crash (.run (.target (.unusable f)))
      | .error (.target f) => .failure 404 f.message
      | .error f => .crash (.run f)
      | .ok r => success ⟨r, some limits, o.audit, p.clock.now⟩
    (reply, ⟨p.adapter.state, p.clock⟩)

/-- What a body cannot be read for. -/
inductive BodyFault where
  | notJson
  | unreadable
  deriving DecidableEq, Repr

/-- The body of a request as JSON; a mark of byte order in front is skipped. -/
def readBody (body : String) : Except BodyFault Json :=
  let bytes := Text.encode body
  if bytes.isEmpty then .ok .null
  else
    match (Text.Encoding.ofDocument bytes).decode? bytes with
    | none => .error .unreadable
    | some chars =>
      let chars := if body.toList.head? = some '\uFEFF' then chars.drop 1 else chars
      match Json.read (String.ofList chars) with
      | .ok j => .ok j
      | .error .malformed => .error .notJson
      | .error _ => .error .unreadable

/-- A fault of the settings of the service is told to the client if it concerns the stored keys. -/
def refusal : ChoiceFault → Reply
  | .credentials f =>
    match f with
    | .unreadable _ _ | .malformed _ | .notMap _ | .keysNotMap _ => .failure 400 f.message
    | .document .malformed => .failure 400 f.message
    | f => .crash (.choice (.credentials f))
  | f => .crash (.choice f)

def analyze (s : Setup σ) (state : State σ) (body : String) : Reply × State σ :=
  match readBody body with
  | .error .notJson => (.invalid, state)
  | .error .unreadable => (.failure 400 "There was an error parsing the body", state)
  | .ok j =>
    match s.connect with
    | .error f => (refusal f, state)
    | .ok oracle =>
      match Order.ofJson? j with
      | none => (.invalid, state)
      | some o => review s oracle state o

/-- What the service offers: a path, the methods it takes, and the answer. -/
inductive Route where
  | health
  | analyze
  /-- A page that describes the service. -/
  | page (path : String)
  deriving DecidableEq, Repr

namespace Route

def all : List Route := [
  page "/openapi.json", page "/docs", page "/docs/oauth2-redirect", page "/redoc", health, analyze]

def path : Route → String
  | health => "/health"
  | analyze => "/analyze"
  | page path => path

def methods : Route → List String
  | health => ["GET"]
  | analyze => ["POST"]
  | page _ => ["GET", "HEAD"]

/-- The route leads to a path, which may end in a line feed. -/
def leadsTo (path : String) (r : Route) : Bool := path = r.path || path = r.path ++ "\n"

def ofPath? (path : String) : Option Route := all.find? (·.leadsTo path)

end Route

def answer (s : Setup σ) (state : State σ) (r : Request) : Reply × State σ :=
  match Route.ofPath? r.path with
  | none =>
    if r.path.endsWith "/" && (Route.ofPath? (Http.withoutSlashes r.path)).isSome then
      (.elsewhere, state)
    else (.failure 404 "Not Found", state)
  | some route =>
    if r.method ∉ route.methods then (.failure 405 "Method Not Allowed", state)
    else
      match route with
      | .health => (.json 200 (.object [("status", .text "ok")]), state)
      | .analyze => analyze s state r.body
      | .page _ => (.json 200 .null, state)

end PerfReview.Service
