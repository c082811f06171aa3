import PerfReview.Oracle
import PerfReview.Text.Blank
import PerfReview.Token

/-!
# Calls to the model

One call for a batch: its request is made, sent once, and its ending becomes an answer, a failure or
a cancellation. Only a text that is not blank is an answer. A call that is waited for is abandoned when
the token fires; if it has not ended it goes on in the background under the name of its worker.
-/

namespace PerfReview

/-- What a call gives the run. -/
inductive Reply where
  | answer (text : String)
  | failed (reason : String)
  | cancelled (reason : String)
  deriving DecidableEq, Repr

namespace Reply

/-- What is said of an answer that is blank or no text. -/
def emptyReason : String := "Oracle returned an empty response"

/-- What is said of a call that the token ended. -/
def abandonedReason : String := "Analysis cancelled while waiting for the oracle"

def ofEnding : Ending → Reply
  | .text s => if Text.isAllBlank s then .failed emptyReason else .answer s
  | .noText => .failed emptyReason
  | .refused reason => .failed reason
  | .failed reason => .failed s!"Oracle call failed: {reason}"
  | .timedOut | .silent => .cancelled abandonedReason

theorem ofEnding_eq_answer_iff {e : Ending} {s : String} :
    ofEnding e = .answer s ↔ e = .text s ∧ Text.isAllBlank s = false := by
  cases e with
  | text t =>
    by_cases h : Text.isAllBlank t = true
    · simp only [ofEnding, h, if_true, Ending.text.injEq, reduceCtorEq, false_iff]
      rintro ⟨rfl, h'⟩
      simp [h] at h'
    · simp only [ofEnding, h, if_false, Bool.false_eq_true, answer.injEq, Ending.text.injEq]
      constructor
      · rintro rfl
        exact ⟨rfl, by simpa using h⟩
      · exact fun h => h.1
  | _ => simp [ofEnding]

theorem ofEnding_eq_cancelled_iff {e : Ending} {reason : String} :
    ofEnding e = .cancelled reason ↔ e.isOpen = true ∧ reason = abandonedReason := by
  cases e with
  | text t => by_cases h : Text.isAllBlank t = true <;> simp [ofEnding, Ending.isOpen, h]
  | timedOut => simp [ofEnding, Ending.isOpen, eq_comm]
  | silent => simp [ofEnding, Ending.isOpen, eq_comm]
  | _ => simp [ofEnding, Ending.isOpen]

end Reply

/-- The connection to the model: its state, the requests sent so far, and whether the latest call
goes on. -/
structure Adapter (σ : Type) where
  state : σ
  requests : List Request := []
  pending : Bool := false

namespace Adapter

variable {σ : Type}

def worker? (a : Adapter σ) : Option String :=
  if a.requests.isEmpty then none
  else some s!"perflens-oracle-{Number.natText a.requests.length}"

def send (o : Oracle σ) (r : Request) (a : Adapter σ) : Ending × Adapter σ :=
  let (e, state) := o.call a.state r
  (e, { state, requests := a.requests ++ [r], pending := e = .silent })

def part : String := "llm.adapter"

def sendingLog (b : Batch) : Log.Entry :=
  .debug part s!"Sending {b.group.name} batch of {Number.natText b.files.length} file(s), {Number.intText b.size} bytes"

def abandoningLog : Log.Entry := .debug part "Abandoning in-flight oracle call after cancellation"

def closingLog (a : Adapter σ) : List Log.Entry :=
  if a.pending then
    a.worker?.toList.map fun name =>
      .debug part s!"Leaving oracle call on {name} to finish in the background"
  else []

/-- What a call changes: the reply, the connection and the token afterwards, and the log. -/
structure Turn (σ : Type) where
  reply : Reply
  adapter : Adapter σ
  token : Token
  log : List Log.Entry

/-- What is logged of the files of a batch that cannot be read, when they are read first. -/
def readingLog (b : Batch) : List Log.Entry := b.files.filterMap (·.readLog?)

/-- What is logged of a call with a given ending, from the reading of its files on; `firing` is what
the firing of the token logs. -/
def callLog (firing : List Log.Entry) (b : Batch) (fires : Bool) (e : Ending) : List Log.Entry :=
  readingLog b ++ sendingLog b :: (if fires then firing else []) ++
    if e.isOpen then [abandoningLog] else []

/-- The token fires during the next call. -/
def fires (o : Oracle σ) (r : Request) (a : Adapter σ) : Bool :=
  (o.call a.state r).1.isOpen || o.interrupts a.state r

/-- Asks the model about a batch, unless the token has fired. -/
def invoke (o : Oracle σ) (audit : Option Audit) (firing : List Log.Entry) (b : Batch) (t : Token)
    (a : Adapter σ) : Turn σ :=
  if t.fired then ⟨.cancelled TokenFault.cancelled.message, a, t, []⟩
  else
    let r := Request.ofBatch b audit
    let fires := a.fires o r
    let (e, a) := a.send o r
    ⟨.ofEnding e, a, if fires then t.cancel else t, callLog firing b fires e⟩

/-- A batch that was not asked about for the fault of a file, with what was logged of those before. -/
structure Unasked where
  fault : PathFault
  log : List Log.Entry
  deriving DecidableEq, Repr

/-- Asks the model about a batch whose files are read for the request. A file that cannot be asked for
is no failure of the call: its fault goes out to whoever asks. -/
def ask (o : Oracle σ) (audit : Option Audit) (firing : List Log.Entry) (b : Batch) (t : Token)
    (a : Adapter σ) : Except Unasked (Turn σ) :=
  if t.fired then .ok (a.invoke o audit firing b t)
  else
    match Request.read? b audit with
    | .error fault => .error ⟨fault, readingLog b.untilFault⟩
    | .ok _ => .ok (a.invoke o audit firing b t)

end Adapter

end PerfReview
