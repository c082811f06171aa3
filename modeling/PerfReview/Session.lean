import PerfReview.Client
import PerfReview.CommandLine.Command
import PerfReview.Log.Sink
import PerfReview.Run

/-!
# Sessions

A session carries out commands one after the other: it holds the file system, the exchange with the
network, and what the console has shown. A command ends with an exit code. What goes wrong before a
scan begins ends it with a message and the code 1, and nothing has been sent or reported by then; a
fault that the program does not foresee ends it as a crash. Once a run has a result, a report is
written whatever became of its batches.
-/

namespace PerfReview

namespace Yaml.Fault

def isForeseen : Fault → Bool
  | emptyNumber | notTruth _ | notTime | timeOfMap | tooLarge | tooDeep | noWord => false
  | _ => true

end Yaml.Fault

namespace SettingsFault

def isForeseen : SettingsFault → Bool
  | tooLarge => false
  | unusable f => f.isOfText
  | document f => f.isForeseen
  | _ => true

end SettingsFault

namespace AuditFault

def isForeseen : AuditFault → Bool
  | notAnObject _ | scoreTooLarge | tooDeep _ => false
  | unusable f => f.isOfText
  | _ => true

end AuditFault

namespace Credentials.Fault

/-- The fault is one that a command on keys foresees. -/
def isForeseen : Fault → Bool
  | document f => f.isForeseen
  | _ => true

/-- The fault is one that a scan foresees. -/
def isForeseenByScan : Fault → Bool
  | unusable f => f.isOfText
  | f => f.isForeseen

end Credentials.Fault

namespace ChoiceFault

/-- The fault is one that a command foresees. -/
def isForeseen : ChoiceFault → Bool
  | unsupported _ => true
  | credentials f => f.isForeseenByScan

end ChoiceFault

/-- Why a scan does not begin, or why a command has no effect. -/
inductive CommandFault where
  | settings (f : SettingsFault)
  | limits (f : LimitsFault)
  /-- The delay is beyond all floating-point numbers. -/
  | delayTooLarge
  /-- The delay is left without a value. -/
  | noDelay
  /-- The provider of a key is left without a value. -/
  | noProvider
  | audit (f : AuditFault)
  | choice (f : ChoiceFault)
  | credentials (f : Credentials.Fault)
  /-- A path that the command names or uses could not be used. -/
  | path (f : PathFault)
  | report (f : WriteFault)

namespace CommandFault

def message : CommandFault → String
  | settings f => f.message
  | limits f => f.message
  | delayTooLarge => "int too large to convert to float"
  | noDelay => "unsupported operand type(s) for /: 'list' and 'float'"
  | noProvider => "'list' object has no attribute 'lower'"
  | audit f => f.message
  | choice f => f.message
  | credentials f => f.message
  | path f => f.message
  | report f => f.message

/-- The command foresees the fault: it ends with a message. -/
def isForeseen : CommandFault → Bool
  | settings f => f.isForeseen
  | limits _ => true
  | audit f => f.isForeseen
  | choice f => f.isForeseen
  | credentials f => f.isForeseen
  | delayTooLarge | noDelay | noProvider | path _ | report _ => false

end CommandFault

/-- How a command ends. -/
inductive Finish where
  | exit (code : Nat)
  | crash (f : CommandFault)

/-- What an interrupt of the program does. -/
inductive OnInterrupt where
  | endsProgram
  | firesToken
  deriving DecidableEq, Repr

structure Serving where
  title : String
  host : Option String
  port : Option Int
  deriving DecidableEq, Repr

/-- When the program is interrupted during the run of a scan, besides the waits for an answer, whose
interruption is a delivery of the network. -/
structure Interrupts (σ : Type) where
  /-- Before the folder is searched. -/
  early : Bool := false
  /-- During a call whose ending is there before the interrupt is noticed, or right after it. -/
  call : Client.Line σ → Request → Bool := fun _ _ => false
  /-- During the wait between batches with the given number. -/
  wait : Option Nat := none

/-- What a session works with. -/
structure Machine (σ : Type) where
  env : Environment
  network : Http.Network σ
  interrupts : Interrupts σ := {}

structure Session (σ : Type) where
  site : Site
  clock : Clock
  line : Client.Line σ
  sink : Log.Sink := ⟨Log.Level.info.weight, none⟩
  onInterrupt : OnInterrupt := .endsProgram
  out : String := ""
  err : String := ""
  served : List Serving := []

namespace Session

variable {σ : Type} [Json.Room] [Yaml.Library]

def serviceTitle : String := "perflens Service"

/-- The variable that names the threshold of the console. -/
def thresholdVariable : String := "PERFLENS_LOG_LEVEL"

def interruptLog : Log.Entry :=
  .warning "cli" "Interrupt received; finishing with partial results"

def change {ε α : Type} (c : Change ε α) (s : Session σ) : Except ε α × Session σ :=
  let (outcome, disk) := c.run s.site.disk
  (outcome, { s with site := s.site.on disk })

def say (text : String) (s : Session σ) : Session σ := { s with out := s.out ++ text }

def complain (text : String) (s : Session σ) : Session σ := { s with err := s.err ++ text }

def log (es : List Log.Entry) (s : Session σ) : Session σ :=
  let s := s.complain (s.sink.onConsole es)
  match s.sink.file with
  | none => s
  | some path => (s.change (Log.append s.site path (s.sink.inFile es))).2

def giveUp (f : CommandFault) (s : Session σ) : Finish × Session σ :=
  if f.isForeseen then (.exit 1, s.complain s!"{f.message}\n") else (.crash f, s)

/-- The path that a text given on the command line means. -/
def pathOf? (s : Session σ) (given : Option String) : Except PathFault (Option String) :=
  (Text.filled given).mapM s.site.expand

def openLog (m : Machine σ) (verbose : Bool) (file : Option String) (s : Session σ) :
    Except CommandFault Unit × Session σ :=
  match s.pathOf? file with
  | .error f => (.error (.path f), s)
  | .ok file =>
    let setting := (Assoc.get? m.env thresholdVariable).getD ""
    let s := { s with sink := ⟨Log.threshold verbose setting, file⟩ }
    match file with
    | none => (.ok (), s)
    | some path => s.change ((Log.openFile s.site path).adapt .path)

/-! ## Scans -/

/-- The settings that a scan starts from: those of the named file, else those of the folder to
scan, else those of the working folder. -/
def settingsFor (o : ScanOptions) (s : Session σ) : Except CommandFault Settings :=
  let path := ((Text.filled o.settings).or (Text.filled o.path)).getD s.site.working
  (Settings.load s.site path).mapError .settings

/-- The delay between batches in seconds. -/
def delayOf : Option Int → Except CommandFault Json
  | none => .error .noDelay
  | some milliseconds =>
    match Number.Binary64.ofInt? milliseconds with
    | some x => .ok (.float (Settings.thousandth x))
    | none => .error .delayTooLarge

/-- A limit in units; a limit without a value is an empty list, which no limit may be. -/
def limitOf (unit : Int) : Option Int → Json
  | some n => .int (n * unit)
  | none => .list []

/-- The limits with those of the options in place. -/
def limitsFor (o : ScanOptions) (l : Limits) : Except CommandFault Limits := do
  let delay ← o.batchDelay.mapM delayOf
  let changes := [
    ("max_files", o.maxFiles.map (limitOf 1)), ("batch_size", o.batchSize.map (limitOf 1)),
    ("max_file_size", o.maxSize.map (limitOf 1024)), ("batch_delay", delay),
    ("token_budget", o.tokenBudget.map (limitOf 1))]
  (l.override (changes.filterMap fun (name, v) => v.map (name, ·))).mapError .limits

/-- The file of audit findings, if a scan takes any. -/
def auditFileFor (o : ScanOptions) (settings : Settings) (s : Session σ) :
    Except PathFault (Option String) :=
  (s.pathOf? o.audit).map (·.or settings.audit)

structure Basis where
  settings : Settings
  limits : Limits
  auditFile : Option String
  audit : Option Audit

/-- Finds what a scan starts from, as far as files say it. -/
def basisFor (o : ScanOptions) (s : Session σ) : Except CommandFault Basis := do
  let settings ← s.settingsFor o
  let limits ← limitsFor o settings.limits
  let auditFile ← (s.auditFileFor o settings).mapError fun f => .audit (.unusable f)
  let audit ← (auditFile.mapM (Audit.load s.site)).mapError .audit
  return { settings, limits, auditFile, audit }

/-- The client of a scan: the options win over the settings. -/
def clientFor (m : Machine σ) (o : ScanOptions) (settings : Settings) (s : Session σ) :
    Except CommandFault Client :=
  let flags : Choice := { provider := o.provider, model := o.model }
  let choice := flags.or ((settings.model.map Choice.ofSettings).getD {})
  (Client.make? m.env s.site choice).mapError .choice

def targetFor (o : ScanOptions) (settings : Settings) (s : Session σ) : Except PathFault String := do
  match ← s.pathOf? o.path with
  | some path => return path
  | none => settings.targetPath s.site

def firingLog : OnInterrupt → List Log.Entry
  | .endsProgram => []
  | .firesToken => [interruptLog]

def runOf (m : Machine σ) (target : String) (b : Basis) (c : Client) (s : Session σ) :
    Progress (Client.Line σ) :=
  let setup : Setup (Client.Line σ) := {
    oracle := { c.oracle m.network with interrupts := m.interrupts.call }
    limits := b.limits, audit := b.audit, waiting := { firing := m.interrupts.wait }
    firing := firingLog s.onInterrupt }
  Run.analyze setup s.clock s.site target b.settings.includes b.settings.ignores
    ⟨s.line, [], false⟩ ⟨m.interrupts.early⟩

def outputFor (o : ScanOptions) (settings : Settings) : Output :=
  match o.format with
  | some f => { settings.output with format := f.name }
  | none => settings.output

/-- A path as it is shown: relative to the working folder where it lies below it. -/
def shown (s : Session σ) (path : String) : String :=
  match s.site.resolve path with
  | .ok place => (Path.below? s.site.working place).getD path
  | .error _ => path

def summary (r : Result) : String :=
  let critical := Number.natText r.findings.critical.length
  let warnings := Number.natText r.findings.warnings.length
  let suggestions := Number.natText r.findings.suggestions.length
  s!"Found {critical} critical, {warnings} warning(s), {suggestions} suggestion(s)\n"

/-- Ends a scan that was cancelled or went through. -/
def close (r : Result) (s : Session σ) : Finish × Session σ :=
  if r.cancelled then
    (.exit 130, s.complain "Analysis cancelled; report contains partial results.\n")
  else (.exit 0, s)

def writeReport (o : ScanOptions) (b : Basis) (r : Result) (s : Session σ) :
    Except CommandFault String × Session σ :=
  match s.pathOf? o.output with
  | .error f => (.error (.path f), s)
  | .ok given =>
    let report : Report := ⟨r, some b.limits, b.audit, s.clock.now⟩
    s.change ((report.write (outputFor o b.settings) s.site s.site.working given).adapt .report)

def report (o : ScanOptions) (b : Basis) (r : Result) (s : Session σ) : Finish × Session σ :=
  match s.writeReport o b r with
  | (.error f, s) => s.giveUp f
  | (.ok path, s) =>
    let s := s.log [Report.writtenLog path]
    let place := s.shown path
    ((s.say (summary r)).say s!"Report written to {place}\n").close r

/-- What is said of a run without a result. -/
def failure : RunFault → String
  | .target (.missing shown) => s!"{(TargetFault.missing shown).message}\n"
  | .target (.notFolder shown) => s!"{(TargetFault.notFolder shown).message}\n"
  | f => s!"perflens scan failed: {f.message}\nRun with --verbose for more details.\n"

/-- What is logged of an interrupt before the search. -/
def earlyLog (m : Machine σ) (s : Session σ) : List Log.Entry :=
  if m.interrupts.early then firingLog s.onInterrupt else []

/-- Reviews a folder and reports. During the run an interrupt fires the token. -/
def review (m : Machine σ) (o : ScanOptions) (target : String) (b : Basis) (c : Client)
    (s : Session σ) : Finish × Session σ :=
  let before := s.onInterrupt
  let s := { s with onInterrupt := .firesToken }
  let p := s.runOf m target b c
  let entries := s.earlyLog m ++ p.log ++ p.adapter.closingLog
  let s := { s with line := p.adapter.state, clock := p.clock, onInterrupt := before }
  let s := s.log entries
  match p.outcome with
  | .error f => (.exit 1, s.complain (failure f))
  | .ok r => s.report o b r

def scan (m : Machine σ) (o : ScanOptions) (s : Session σ) : Finish × Session σ :=
  match s.basisFor o with
  | .error f => s.giveUp f
  | .ok b =>
    let s := s.log (b.auditFile.map Audit.loadLog).toList
    match s.clientFor m o b.settings with
    | .error f => s.giveUp f
    | .ok c =>
      match s.targetFor o b.settings with
      | .error f => s.giveUp (.path f)
      | .ok target => s.review m o target b c

/-! ## Keys and service -/

def shownProvider (p : Provider) : String := Text.latinCapitals p.name

/-- Reads the stored keys for a provider that is not given. -/
def withoutProvider (path : String) (s : Session σ) : Finish × Session σ :=
  match Credentials.load s.site path with
  | .error f => s.giveUp (.credentials f)
  | .ok _ => s.giveUp .noProvider

def setKey (m : Machine σ) (p : Option Provider) (key : String) (s : Session σ) :
    Finish × Session σ :=
  match Client.keyFile m.env s.site, p with
  | .error f, _ => s.giveUp (.path f)
  | .ok path, none =>
    if Text.strip key = "" then s.giveUp (.credentials .blankKey) else s.withoutProvider path
  | .ok path, some p =>
    match s.change (Credentials.set s.site path p.name key) with
    | (.error f, s) => s.giveUp (.credentials f)
    | (.ok (), s) =>
      let s := s.log [Credentials.storedLog p.name path]
      (.exit 0, s.say s!"{shownProvider p} API key saved to {path}\n")

def getKey (m : Machine σ) (p : Option Provider) (s : Session σ) : Finish × Session σ :=
  match Client.keyFile m.env s.site, p with
  | .error f, _ => s.giveUp (.path f)
  | .ok path, none => s.withoutProvider path
  | .ok path, some p =>
    match Credentials.get? s.site path p.name with
    | .error f => s.giveUp (.credentials f)
    | .ok key =>
      match Text.filled key with
      | some key => (.exit 0, s.say s!"Current {shownProvider p} API key: {Credentials.mask key}\n")
      | none =>
        (.exit 0, (s.say s!"No API key configured for {shownProvider p}\n").say
          s!"To set an API key, use:\nperflens config set-key YOUR_API_KEY --provider {p.name}\n")

def serve (host : Option String) (port : Option Int) (s : Session σ) : Finish × Session σ :=
  (.exit 0, { s with served := s.served ++ [⟨serviceTitle, host, port⟩] })

def perform (m : Machine σ) (c : Command) (s : Session σ) : Finish × Session σ :=
  match c with
  | .scan o => s.scan m o
  | .setKey p key => s.setKey m p key
  | .getKey p => s.getKey m p
  | .serve host port => s.serve host port

def logFileOf : Command → Option String
  | .scan o => o.logFile
  | _ => none

def run (m : Machine σ) (g : CommandLine.Given) (s : Session σ) : Finish × Session σ :=
  match s.openLog m g.verbose (logFileOf g.command) with
  | (.error f, s) => s.giveUp f
  | (.ok (), s) => s.perform m g.command

end Session

end PerfReview
