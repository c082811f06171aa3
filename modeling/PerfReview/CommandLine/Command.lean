import PerfReview.CommandLine.Words
import PerfReview.Provider
import PerfReview.Report.Output

/-!
# Commands

What the program can be told to do: to scan a folder, to keep or show the key of a provider, and to
serve requests over the network. Of an option that may be left without its value, `none` or
`some none` says that it is.
-/

namespace PerfReview

structure ScanOptions where
  verbose : Bool := false
  path : Option String := none
  settings : Option String := none
  maxFiles : Option (Option Int) := none
  batchSize : Option (Option Int) := none
  /-- The greatest size of a file in units of 1024 bytes. -/
  maxSize : Option (Option Int) := none
  /-- The time between two batches in milliseconds. -/
  batchDelay : Option (Option Int) := none
  tokenBudget : Option (Option Int) := none
  audit : Option String := none
  provider : Option String := none
  model : Option String := none
  output : Option String := none
  format : Option Format := none
  logFile : Option String := none
  deriving DecidableEq, Repr

structure KeyOptions where
  key : String := ""
  provider : Option Provider := some .standard
  deriving DecidableEq, Repr

structure ServeOptions where
  verbose : Bool := false
  host : Option String := some "127.0.0.1"
  port : Option Int := some 8000
  deriving DecidableEq, Repr

inductive Command where
  | scan (o : ScanOptions)
  | setKey (p : Option Provider) (key : String)
  | getKey (p : Option Provider)
  | serve (host : Option String) (port : Option Int)
  deriving DecidableEq, Repr

namespace CommandLine

variable {α : Type}

def program : String := "perflens"

def helpFlag : Flag α := ⟨["-h", "--help"], .help⟩

def verboseFlag (set : α → α) : Flag α := ⟨["-v", "--verbose"], .switch set⟩

def textFlag (name : String) (set : Option String → α → α) : Flag α := ⟨[name], .text set⟩

def integerFlag (name : String) (set : Option Int → α → α) : Flag α := ⟨[name], .integer set⟩

/-- The options before the command: whether details are shown. -/
def topLevel : Level Bool where
  title := program
  flags := [helpFlag, verboseFlag fun _ => true]
  slot := .command "command" ["scan", "config", "serve"]

def scanLevel : Level ScanOptions where
  title := s!"{program} scan"
  flags := [
    helpFlag,
    verboseFlag fun o => { o with verbose := true },
    textFlag "--config" fun v o => { o with settings := v },
    integerFlag "--max-files" fun n o => { o with maxFiles := some n },
    integerFlag "--batch-size" fun n o => { o with batchSize := some n },
    integerFlag "--max-size" fun n o => { o with maxSize := some n },
    integerFlag "--batch-delay" fun n o => { o with batchDelay := some n },
    integerFlag "--token-budget" fun n o => { o with tokenBudget := some n },
    textFlag "--audit-context" fun v o => { o with audit := v },
    textFlag "--provider" fun v o => { o with provider := some (v.getD "") },
    textFlag "--model" fun v o => { o with model := some (v.getD "") },
    textFlag "--output" fun v o => { o with output := v },
    ⟨["--format"],
      .choice (Format.all.map fun f => (f.name, fun o => { o with format := some f }))
        fun o => { o with format := none }⟩,
    textFlag "--log-file" fun v o => { o with logFile := v }]
  slot := .optional fun v o => { o with path := some v }

def configLevel : Level Bool where
  title := s!"{program} config"
  flags := [helpFlag, verboseFlag fun _ => true]
  slot := .command "config_command" ["set-key", "get-key"]

def providerFlag : Flag KeyOptions :=
  ⟨["--provider"],
    .choice (Provider.all.map fun p => (p.name, fun o => { o with provider := some p }))
      fun o => { o with provider := none }⟩

def setKeyLevel : Level KeyOptions where
  title := s!"{program} config set-key"
  flags := [helpFlag, providerFlag]
  slot := .required "key" fun v o => { o with key := v }

def getKeyLevel : Level KeyOptions where
  title := s!"{program} config get-key"
  flags := [helpFlag, providerFlag]
  slot := .closed

def serveLevel : Level ServeOptions where
  title := s!"{program} serve"
  flags := [
    helpFlag,
    verboseFlag fun o => { o with verbose := true },
    textFlag "--host" fun v o => { o with host := v },
    integerFlag "--port" fun n o => { o with port := n }]
  slot := .closed

/-- A command as it was read: whether details are shown, the command, and the words without a
place. -/
structure Given where
  verbose : Bool
  command : Command
  extras : List String
  deriving DecidableEq, Repr

def readScan (args : List String) : Except Stop Given := do
  let r ← scanLevel.read {} args
  return ⟨r.options.verbose, .scan r.options, r.extras⟩

def readServe (args : List String) : Except Stop Given := do
  let r ← serveLevel.read {} args
  return ⟨r.options.verbose, .serve r.options.host r.options.port, r.extras⟩

def readSetKey (args : List String) : Except Stop Given := do
  let r ← setKeyLevel.read {} args
  return ⟨false, .setKey r.options.provider r.options.key, r.extras⟩

def readGetKey (args : List String) : Except Stop Given := do
  let r ← getKeyLevel.read {} args
  return ⟨false, .getKey r.options.provider, r.extras⟩

/-- Goes on from a level to the one that its command opens. -/
def descend (l : Level Bool) (next : String → List String → Except Stop Given)
    (args : List String) : Except Stop Given := do
  let r ← l.read false args
  let (name, rest) := r.command.getD ("", [])
  let g ← next name rest
  return { g with verbose := r.options || g.verbose, extras := r.extras ++ g.extras }

def readConfig (args : List String) : Except Stop Given :=
  descend configLevel (fun name rest =>
    if name = "set-key" then readSetKey rest else readGetKey rest) args

def read (args : List String) : Except Stop Given := do
  let g ← descend topLevel (fun name rest =>
    if name = "scan" then readScan rest
    else if name = "config" then readConfig rest
    else readServe rest) args
  if g.extras.isEmpty then return g else .error (.misuse program (.unknown g.extras))

end CommandLine

end PerfReview
