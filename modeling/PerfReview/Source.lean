import PerfReview.Group
import PerfReview.Log.Entry
import PerfReview.Text.Lines
import PerfReview.Text.Utf8

/-!
# Source files

A file that may be reviewed: where it lies, what it weighs, its group, and its text. The text is
read leniently, with every line break a line feed; a file that cannot be read has an empty text and
the reason.
-/

namespace PerfReview

/-- What reading a file gave. -/
structure Reading where
  text : String
  /-- Why the file could not be read. -/
  fault : Option String := none
  deriving DecidableEq, Repr

namespace Reading

def ofBytes (bytes : List UInt8) : Reading where
  text := String.ofList (Text.unifyBreaks (Text.decodeLenient bytes))

def failed (reason : String) : Reading := ⟨"", some reason⟩

end Reading

structure Source where
  /-- The path in the file system. -/
  path : String
  /-- The path below the reviewed folder, by which the file is cited. -/
  relative : String
  /-- The size in bytes. -/
  size : Int
  /-- The extension in small letters, with its dot. -/
  extension : String
  group : Option Group
  /-- The position in the order of discovery. -/
  index : Nat
  reading : Reading
  deriving DecidableEq, Repr

namespace Source

def text (f : Source) : String := f.reading.text

/-- The number of lines that a listing of the file shows. -/
def lineCount (f : Source) : Nat := Text.lineCount f.text

/-- The log entry of the first reading, if that failed. -/
def readLog? (f : Source) : Option Log.Entry :=
  f.reading.fault.map fun reason =>
    .warning "models" s!"Unable to read {f.relative}: {reason}"

end Source

end PerfReview
