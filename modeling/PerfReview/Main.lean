import PerfReview.Session
import PerfReview.Standard
import Std.Time.DateTime.Timestamp

/-!
# The program

The command line as a program: it loads the folders that the command can reach, carries the command
out on them, shows what the console shows, and writes back the files that have changed. It is linked
to no transport, so every post over the network is unreachable.
-/

namespace PerfReview.Program

def lookedUp : List String :=
  ["HOME", Client.folderVariable, Session.thresholdVariable, Client.providerVariable,
    Client.modelVariable, Client.baseUrlVariable, Client.keyVariable] ++
  Provider.all.flatMap (·.keyVariables)

def environment : IO Environment :=
  lookedUp.filterMapM fun name => do return (← IO.getEnv name).map (name, ·)

/-- Loads the file or folder at a path; what cannot be read is left out. -/
partial def load (path : String) : IO (Option Node) := do
  try
    let place ← IO.FS.realPath path
    if ← place.isDir then
      let entries ← place.readDir
      let loaded ← entries.toList.filterMapM fun e => do
        return (← load (Path.join path e.fileName)).map (e.fileName, ·)
      return some (.folder loaded)
    else
      let bytes ← IO.FS.readBinFile place
      return some (.file bytes.toList 0o644)
  catch _ => return none

def named : Command → List String
  | .scan o => [o.path, o.settings, o.audit, o.output, o.logFile].filterMap id
  | _ => []

def loadSite (env : Environment) (working home : String) (c : Command) : IO Site := do
  let site : Site := { disk := Disk.empty, working, home }
  let keys := (Client.keyFile env site).toOption.map Path.parent
  let given := (named c).filterMap fun p => (site.expand p).toOption
  let disk ← (working :: keys.toList ++ given).foldlM (fun (d : Disk) path => do
    let path := site.absolute path
    return ((← load path).map (d.place path ·)).getD d) Disk.empty
  return site.on disk

partial def files (path : String) : Node → List (String × List UInt8 × Nat)
  | .file bytes mode => [(path, bytes, mode)]
  | .folder entries => entries.flatMap fun (name, n) => files (path ++ "/" ++ name) n
  | .link _ => []

/-- Writes the files that have changed; a file that its owner alone may read is kept so. -/
def store (before after : Disk) : IO Unit := do
  let old := files "" before.top
  for (path, bytes, mode) in files "" after.top do
    unless old.any fun f => f.1 = path && f.2.1 = bytes do
      IO.FS.createDirAll (Path.parent path)
      IO.FS.writeBinFile path (ByteArray.mk bytes.toArray)
      if mode = 0o600 then IO.setAccessRights path { user := { read := true, write := true } }

def offline : Http.Network Unit where
  send _ _ := (.unreachable "no transport", ())

def usage : String := s!"usage: {CommandLine.program} [-h] [-v] scan|config|serve ...\n"

def clock : IO Clock := do
  let now ← Std.Time.Timestamp.now
  return { now := .ofMilliseconds now.toMillisecondsSinceUnixEpoch.val.toNat, elapsed := .real .zero }

/-- Carries out a command and gives its exit code. -/
def perform (g : CommandLine.Given) : IO UInt32 := do
  let env ← environment
  let home := (Assoc.get? env "HOME").getD "/"
  let working ← IO.currentDir
  let site ← loadSite env working.toString home g.command
  let m : Machine Unit := { env, network := offline }
  let (finish, s) := ({ site, clock := ← clock, line := ⟨(), []⟩ } : Session Unit).run m g
  store site.disk s.site.disk
  IO.print s.out
  IO.eprint s.err
  match finish with
  | .exit code => return code.toUInt32
  | .crash f =>
    IO.eprintln f.message
    return 1

end PerfReview.Program

open PerfReview in
def main (args : List String) : IO UInt32 :=
  match CommandLine.read args with
  | .ok g => Program.perform g
  | .error .help => do
    IO.print Program.usage
    return 0
  | .error stop => do
    IO.eprint stop.message
    return 2
