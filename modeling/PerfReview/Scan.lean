import PerfReview.Number.Layout
import PerfReview.Pattern
import PerfReview.Site
import PerfReview.Source

/-!
# Scanning a folder

The candidate files below a folder: those that match an include pattern, no ignore pattern, and are
small enough. A folder whose path with a slash after it matches an ignore pattern is not entered,
and neither are links to folders, nor folders whose path is too long. The files of a folder come
before those of its sub-folders; both are in the order of their names.
-/

namespace PerfReview

/-- What is looked for below a folder. -/
structure Selection where
  includes : List String
  ignores : List String
  maxFileSize : Int

/-- A file met on the way that no ignore pattern matches. -/
structure Candidate where
  /-- The path in the file system. -/
  path : String
  /-- The path below the scanned folder. -/
  relative : String
  content : Except DiskFault (List UInt8)

/-- What became of a candidate that matches an include pattern. -/
inductive Sighting where
  | kept (f : Source)
  | oversize (relative : String) (size : Nat)
  | unreadable (relative : String) (path : String) (fault : DiskFault)

/-- The folder to scan is not there, or is no folder, or its path could not be used. -/
inductive TargetFault where
  | missing (shown : String)
  | notFolder (shown : String)
  | unusable (f : PathFault)
  deriving DecidableEq, Repr

namespace TargetFault

def message : TargetFault → String
  | missing shown => s!"Target directory not found: {shown}"
  | notFolder shown => s!"Target path is not a directory: {shown}"
  | unusable f => f.message

end TargetFault

namespace Scan

/-- A path below a folder, the top folder having the empty one. -/
def under (folder name : String) : String := if folder = "" then name else s!"{folder}/{name}"

/-- What an entry of a folder is for a scan. -/
inductive Visit where
  /-- A file, or a link that does not lead to a folder. -/
  | file (content : Except DiskFault (List UInt8))
  /-- A folder with the candidates below it. -/
  | folder (found : List Candidate)
  /-- An entry that is passed over. -/
  | passed

def candidate? (ignores : List String) (path relative : String) :
    String × Visit → Option Candidate
  | (name, .file content) =>
    let r := under relative name
    if matchesAny ignores r then none else some ⟨Path.join path name, r, content⟩
  | _ => none

def below : String × Visit → List Candidate
  | (_, .folder found) => found
  | _ => []

/-- The candidates of a folder whose entries have been visited. -/
def arrange (ignores : List String) (path relative : String) (visits : List (String × Visit)) :
    List Candidate :=
  let ordered := visits.mergeSort fun a b => a.1 ≤ b.1
  ordered.filterMap (candidate? ignores path relative) ++ ordered.flatMap below

/-- A folder is not entered if it is ignored, and cannot be if its path is too long. -/
def isClosed (ignores : List String) (path relative : String) : Bool :=
  matchesAny ignores (relative ++ "/") || Path.maxLength ≤ path.utf8ByteSize

/-- What is read of a file with the given bytes. -/
def reached (path : String) (bytes : List UInt8) : Except DiskFault (List UInt8) :=
  if Path.maxLength ≤ path.utf8ByteSize then .error .nameTooLong else .ok bytes

mutual

def visit (d : Disk) (ignores : List String) (path relative : String) : Node → Visit
  | .file bytes _ => .file (reached path bytes)
  | .link _ => if d.leadsToFolder path then .passed else .file (d.read path)
  | .folder entries =>
    if isClosed ignores path relative then .passed
    else .folder (arrange ignores path relative (visitAll d ignores path relative entries))

def visitAll (d : Disk) (ignores : List String) (path relative : String) :
    List (String × Node) → List (String × Visit)
  | [] => []
  | (name, n) :: rest =>
    (name, visit d ignores (Path.join path name) (under relative name) n) ::
      visitAll d ignores path relative rest

end

/-- The candidates below a folder at an absolute path. -/
def candidates (d : Disk) (ignores : List String) (path : String)
    (entries : List (String × Node)) : List Candidate :=
  arrange ignores path "" (visitAll d ignores path "" entries)

/-- Settles the candidates one by one; `index` counts the files kept so far. -/
def settle (maxFileSize : Int) : Nat → List Candidate → List Sighting
  | _, [] => []
  | index, c :: cs =>
    match c.content with
    | .error fault => .unreadable c.relative c.path fault :: settle maxFileSize index cs
    | .ok bytes =>
      if maxFileSize < bytes.length then
        .oversize c.relative bytes.length :: settle maxFileSize index cs
      else
        let extension := Text.small (Path.extension (Path.name c.path))
        .kept
          { path := c.path, relative := c.relative, size := bytes.length, extension := extension
            group := Group.classify c.relative extension, index := index
            reading := .ofBytes bytes } ::
          settle maxFileSize (index + 1) cs

def kept? : Sighting → Option Source
  | .kept f => some f
  | _ => none

def oversize? : Sighting → Option String
  | .oversize r _ => some r
  | _ => none

def logLine? (maxFileSize : Int) : Sighting → Option Log.Entry
  | .kept _ => none
  | .oversize r size =>
    some (.debug "scanner"
      s!"Skipping {r} ({Number.natText size} bytes exceeds max file size {Number.intText maxFileSize})")
  | .unreadable r path fault => some (.warning "scanner" s!"Unable to stat {r}: {fault.message path}")

end Scan

/-- The outcome of a scan. -/
structure Scan where
  /-- The scanned folder. -/
  root : String
  maxFileSize : Int
  sightings : List Sighting

namespace Scan

def files (s : Scan) : List Source := s.sightings.filterMap kept?

/-- The paths of the files that are too large. -/
def skipped (s : Scan) : List String := s.sightings.filterMap oversize?

def entries (s : Scan) : List Log.Entry :=
  let kept := Number.natText s.files.length
  let left := Number.natText s.skipped.length
  s.sightings.filterMap (logLine? s.maxFileSize) ++
    [.debug "scanner" s!"Scanner discovered {kept} file(s) under {s.root} ({left} oversize)"]

def run (site : Site) (target : String) (sel : Selection) : Except TargetFault Scan := do
  let root ← (site.expand target >>= site.resolve).mapError .unusable
  match ← (site.find? root).mapError .unusable with
  | none => throw (.missing target)
  | some (.folder entries) =>
    let matching := (candidates site.disk sel.ignores root entries).filter fun c =>
      matchesAny sel.includes c.relative
    return ⟨root, sel.maxFileSize, settle sel.maxFileSize 0 matching⟩
  | some _ => throw (.notFolder target)

end Scan

end PerfReview
