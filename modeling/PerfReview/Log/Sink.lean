import PerfReview.Log.Entry
import PerfReview.Site
import PerfReview.Text.Blank
import PerfReview.Text.LetterCase

/-!
# Where the log goes

The console shows entries from a threshold on, which a flag or a setting names; a log file takes
every entry. An entry reaches both only if it passes the level of the whole log, which a log file
sets to the lowest.
-/

namespace PerfReview.Log

def thresholds : List (String × Nat) := [
  ("CRITICAL", 50), ("FATAL", 50), ("ERROR", 40), ("WARN", 30), ("WARNING", 30), ("INFO", 20),
  ("DEBUG", 10), ("NOTSET", 0)]

/-- The threshold of the console: the lowest if details are asked for, else the one that the setting
names, else that of plain information. -/
def threshold (verbose : Bool) (setting : String) : Nat :=
  if verbose then Level.debug.weight
  else (Assoc.get? thresholds (Text.latinCapitals (Text.strip setting))).getD Level.info.weight

/-- Where entries are shown. -/
structure Sink where
  console : Nat
  file : Option String
  deriving DecidableEq, Repr

namespace Sink

def level (s : Sink) : Nat := if s.file.isSome then Level.debug.weight else s.console

/-- The level that entries have to reach; a log without a level of its own lets warnings pass. -/
def effective (s : Sink) : Nat := if s.level = 0 then Level.warning.weight else s.level

def admits (s : Sink) (e : Entry) : Bool := s.effective ≤ e.level.weight

def consoleLine (e : Entry) : String := s!"[{rootChannel}] {e.level.name} {e.text}\n"

/-- The line of an entry in a file, less the time. -/
def fileLine (e : Entry) : String :=
  s!"{e.level.name} {channel e.part} [MainThread]: {e.text}\n"

def onConsole (s : Sink) (es : List Entry) : String :=
  String.join ((es.filter fun e => s.admits e && s.console ≤ e.level.weight).map consoleLine)

/-- What a log file gains by entries; a line that cannot be written is left out. -/
def inFile (s : Sink) (es : List Entry) : String :=
  String.join (((es.filter s.admits).map fileLine).filter fun l => (Text.unwritable? l).isNone)

end Sink

/-- The place of a log file, with parents taken off as they are written. -/
def place (site : Site) (path : String) : String :=
  let p := site.absolute path
  Path.build (Path.anchor p) (Path.level (Path.parts p))

/-- The bytes of a log file, none before it is written. -/
def written (site : Site) (path : String) : List UInt8 :=
  match site.read (place site path) with
  | .ok bytes => bytes
  | .error _ => []

/-- Opens a log file, making its folder. -/
def openFile (site : Site) (path : String) : Change PathFault Unit := do
  site.makeFolders (Path.parent path)
  site.write (place site path) (written (site.on (← get)) path)

/-- Adds text to a log file that is open. -/
def append (site : Site) (path text : String) : Change PathFault Unit :=
  site.write (place site path) (written site path ++ Text.encode text)

end PerfReview.Log
