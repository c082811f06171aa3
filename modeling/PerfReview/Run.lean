import PerfReview.Adapter
import PerfReview.Clock
import PerfReview.Limits
import PerfReview.Response
import PerfReview.Result
import PerfReview.Scan

/-!
# Runs

A review from the folder to the findings: the files are found, ordered and planned, and the batches
are sent one after the other, with a wait between two batches of one group. A batch without an
answer costs its own findings alone. When the token fires, the run ends early and keeps what it has.
Two things end a run without a result: a line number with too many digits in an answer, and a wait
too long for the clock.
-/

namespace PerfReview

inductive Stage where
  | idle
  | discovering
  | scoring
  | batching
  | executing
  | done
  deriving DecidableEq, Repr

namespace Stage

def name : Stage → String
  | idle => "idle"
  | discovering => "discovering"
  | scoring => "scoring"
  | batching => "batching"
  | executing => "executing"
  | done => "done"

end Stage

/-- How the waits of a run end. -/
structure Waiting where
  /-- They take their time, as far as the clock can measure it; else they are over at once. -/
  measured : Bool := true
  /-- The wait from which on the token fires during them, counted from one. -/
  firing : Option Nat := none
  deriving DecidableEq, Repr

/-- A wait; the answer says whether the token had fired before. -/
def Waiting.pass (w : Waiting) (t : Token) (seconds : Amount) : Except TokenFault Bool :=
  if w.measured then t.wait seconds else .ok t.fired

/-- Why a run has no result. -/
inductive RunFault where
  | target (f : TargetFault)
  | digits (f : Number.IntFault)
  | wait (f : TokenFault)
  deriving DecidableEq

namespace RunFault

def message : RunFault → String
  | target f => f.message
  | digits (.tooLong n) => Number.tooLongMessage n
  | digits .malformed => "malformed number"
  | wait f => f.message

end RunFault

/-- What a run works with besides the files. -/
structure Setup (σ : Type) where
  oracle : Oracle σ
  limits : Limits := {}
  audit : Option Audit := none
  waiting : Waiting := {}
  /-- What is logged when the token fires during a call or a wait. -/
  firing : List Log.Entry := []

/-- Whether a run goes on. -/
inductive Status where
  | going
  | cancelled
  | aborted (f : RunFault)
  deriving DecidableEq

/-- A run so far. -/
structure Progress (σ : Type) where
  adapter : Adapter σ
  clock : Clock
  token : Token := {}
  status : Status := .going
  result : Result := {}
  /-- The batches begun, in order. -/
  begun : List Batch := []
  /-- The waits begun, in seconds. -/
  waits : List Amount := []
  log : List Log.Entry := []

namespace Progress

variable {σ : Type}

def part : String := "orchestrator"

def tell (es : List Log.Entry) (p : Progress σ) : Progress σ := { p with log := p.log ++ es }

def stop (status : Status) (p : Progress σ) : Progress σ := { p with status }

def stageLog (before after : Stage) : Log.Entry :=
  .debug part s!"Run state {before.name} -> {after.name}"

/-- Begins a batch: its files count as analysed. -/
def begin (b : Batch) (p : Progress σ) : Progress σ :=
  { p with
    begun := p.begun ++ [b]
    result := b.paths.foldl (fun r path => r.takeUp path)
      { p.result with analyzed := p.result.analyzed ++ b.paths } }

def fail (label reason : String) (p : Progress σ) : Progress σ :=
  { p with result := { p.result with failed := p.result.failed ++ [label] } }.tell
    [.warning part s!"Oracle failed for {label}: {reason}"]

def enter (label : String) (r : Response) (p : Progress σ) : Progress σ :=
  let p := p.tell r.entries
  match r.fault with
  | some f => p.stop (.aborted (.digits f))
  | none =>
    let issues := Number.natText r.issues.length
    let rejected := Number.natText r.rejected.length
    { p with
      result := { p.result.addAll r.issues with
        rejectedCount := p.result.rejectedCount + r.rejected.length } }.tell
      [.debug part s!"{label} yielded {issues} issue(s), {rejected} rejected record(s)"]

def settle (root : String) (b : Batch) (reply : Reply) (p : Progress σ) : Progress σ :=
  let label := b.label p.begun.length
  match reply with
  | .answer text => p.enter label (Response.read (Index.ofFiles b.files (some root)) text)
  | .failed reason => p.fail label reason
  | .cancelled _ => p.stop .cancelled

def runBatch (s : Setup σ) (root : String) (b : Batch) (p : Progress σ) : Progress σ :=
  let p := p.begin b
  let turn := p.adapter.invoke s.oracle s.audit s.firing b p.token
  { p with adapter := turn.adapter, token := turn.token }.tell turn.log
    |>.settle root b turn.reply

def pause (s : Setup σ) (p : Progress σ) : Progress σ :=
  let p := { p with waits := p.waits ++ [s.limits.batchDelay] }
  match s.waiting.pass p.token s.limits.batchDelay with
  | .error f => p.stop (.aborted (.wait f))
  | .ok true => p.stop .cancelled
  | .ok false =>
    if s.waiting.firing.any (· ≤ p.waits.length) then
      { p with token := p.token.cancel, status := .cancelled }.tell s.firing
    else p

def runBatches (s : Setup σ) (root : String) : List Batch → Progress σ → Progress σ
  | [], p => p
  | b :: rest, p =>
    if p.token.fired then p.stop .cancelled
    else
      let p := p.runBatch s root b
      if p.status ≠ .going || rest.isEmpty then p
      else
        let p := p.pause s
        if p.status ≠ .going then p else runBatches s root rest p

def groupLog (g : Group) (bs : List Batch) : Log.Entry :=
  .info part s!"Analysing {Number.natText bs.length} {g.name} batch(es)"

def runGroups (s : Setup σ) (root : String) : List (Group × List Batch) → Progress σ → Progress σ
  | [], p => p
  | (g, bs) :: rest, p =>
    let p := (p.tell [groupLog g bs]).runBatches s root bs
    if p.status ≠ .going then p else runGroups s root rest p

def cancelledLog (p : Progress σ) : Log.Entry :=
  .warning part
    s!"Analysis cancelled; returning {Number.natText p.result.total} finding(s) from completed batches"

def finishedLog (r : Result) : Log.Entry :=
  let critical := Number.natText r.findings.critical.length
  let warnings := Number.natText r.findings.warnings.length
  let suggestions := Number.natText r.findings.suggestions.length
  let files := Number.natText r.analyzed.length
  .info part s!"Analysis finished: {critical} critical, {warnings} warning(s), {suggestions} suggestion(s) across {files} file(s)"

/-- Closes a run that was not aborted and that began when the watch showed `start`. -/
def finish (start : Amount) (p : Progress σ) : Progress σ :=
  match p.status with
  | .aborted _ => p
  | status =>
    let p := if status = .cancelled then p.tell [p.cancelledLog] else p
    let duration := p.clock.seconds.minus start
    let result := { p.result with cancelled := status = .cancelled, duration }
    { p with result, clock := p.clock.looked }.tell [stageLog .executing .done, finishedLog result]

end Progress

namespace Run

variable {σ : Type}

/-- The result with which the batches of a plan are taken up. -/
def opening (scan : Scan) (plan : Plan) (now : Moment) : Result where
  skipped :=
    scan.skipped ++ plan.skipped.map (·.relative) ++ plan.dropped.map (·.relative)
  batchCount := plan.batches.length
  target := scan.root
  startedAt := some now

def planningLog (l : Limits) (scan : Scan) (candidates : List Source) (plan : Plan) :
    List Log.Entry :=
  scan.entries ++
    [.info Progress.part
      s!"Found {Number.natText scan.files.length} candidate file(s) under {scan.root}",
      Progress.stageLog .discovering .scoring, Progress.stageLog .scoring .batching] ++
    plan.entries l.bounds candidates ++ [Progress.stageLog .batching .executing]

/-- Reviews the files that a scan found; the run began when the watch showed `start`. -/
def ofScan (s : Setup σ) (start : Amount) (scan : Scan) (p : Progress σ) : Progress σ :=
  let candidates := prioritize scan.files
  let plan := Plan.ofUsable s.limits.bounds candidates
  { p with result := opening scan plan p.clock.now }.tell (planningLog s.limits scan candidates plan)
    |>.runGroups s scan.root plan.groups
    |>.finish start

/-- Reviews a folder with a connection to the model and a token. -/
def analyze (s : Setup σ) (clock : Clock) (site : Site) (target : String)
    (includes ignores : List String) (adapter : Adapter σ) (token : Token) : Progress σ :=
  let p : Progress σ :=
    { adapter, token, clock := clock.looked, log := [Progress.stageLog .idle .discovering] }
  match Scan.run site target ⟨includes, ignores, s.limits.bounds.maxFileSize⟩ with
  | .error f => p.stop (.aborted (.target f))
  | .ok scan => ofScan s clock.seconds scan p

end Run

namespace Progress

variable {σ : Type}

/-- The result of a finished run, or why there is none. -/
def outcome (p : Progress σ) : Except RunFault Result :=
  match p.status with
  | .aborted f => .error f
  | _ => .ok p.result

end Progress

end PerfReview
