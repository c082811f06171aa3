import PerfReview.Disk
import PerfReview.Text.Lines

/-!
# Paths in their place

A site is the file system with a working folder, which paths that are not absolute start from, and
the home folders of users, which a first part `~` or `~name` stands for. The operations take paths
as they are written, and their faults name them so. What looks whether something is there takes a
path that leads nowhere for a path to nothing; only a name that is too long is a fault.
-/

namespace PerfReview

/-- Why a path could not be used. -/
inductive PathFault where
  /-- The path holds a NUL. -/
  | nul
  /-- The path holds surrogates. -/
  | surrogates (u : Text.Unwritable)
  /-- The path starts in the home folder of a user who has none. -/
  | homeless
  /-- The links of the path lead back to themselves. -/
  | circular (path : String)
  | disk (f : DiskFault) (path : String)
  deriving DecidableEq, Repr

namespace PathFault

def message : PathFault → String
  | nul => "embedded null byte"
  | surrogates u => u.message
  | homeless => "Could not determine home directory."
  | circular path => s!"Symlink loop from {Text.quoted path}"
  | disk f path => f.message path

/-- The text of the path is at fault, not the file system. -/
def isOfText : PathFault → Bool
  | nul | surrogates _ => true
  | _ => false

end PathFault

/-- The home folders that users of the system have. -/
def systemHomes : List (String × String) := [
  ("root", "/root"), ("daemon", "/usr/sbin"), ("bin", "/bin"), ("sys", "/dev"), ("sync", "/bin"),
  ("games", "/usr/games"), ("man", "/var/cache/man"), ("lp", "/var/spool/lpd"),
  ("mail", "/var/mail"), ("news", "/var/spool/news"), ("uucp", "/var/spool/uucp"),
  ("proxy", "/bin"), ("www-data", "/var/www"), ("backup", "/var/backups"), ("list", "/var/list"),
  ("irc", "/run/ircd"), ("_apt", "/nonexistent"), ("nobody", "/nonexistent")]

/-- Where paths are read from. -/
structure Site where
  disk : Disk
  working : String
  home : String
  homes : List (String × String) := systemHomes

/-- A change of the file system, which may fail half-way. -/
abbrev Change (ε α : Type) := ExceptT ε (StateM Disk) α

namespace Path

/-- Checks that the file system can be asked for a path. One with surrogates is refused: those by which
the system shows bytes that are not UTF-8 would name a file, but no file here has such a name. -/
def check (p : String) : Except PathFault Unit :=
  match Text.unwritable? p with
  | some u => .error (.surrogates u)
  | none => if p.toList.contains '\x00' then .error .nul else .ok ()

end Path

namespace Site

/-- The path with its relative start filled in. -/
def absolute (s : Site) (path : String) : String := Path.join s.working path

/-- The home folder of a user; no name means the user at work. -/
def homeOf (s : Site) (user : String) : Except PathFault String := do
  if user = "" then return s.home
  Path.check user
  match Assoc.get? s.homes user with
  | some home => return home
  | none => throw .homeless

/-- The path with a first part that stands for a home folder replaced by it. -/
def expand (s : Site) (path : String) : Except PathFault String :=
  match Path.anchor path, Path.parts path with
  | "", first :: rest =>
    match first.toList with
    | '~' :: user => do
      let home ← s.homeOf (String.ofList user)
      if home.startsWith "~" then throw .homeless
      let home := if home.toList.all (· = '/') then "/" else home
      return Path.build (Path.anchor home) (Path.parts home ++ rest)
    | _ => .ok (Path.normal path)
  | _, _ => .ok (Path.normal path)

def locate (s : Site) (path : String) : Except PathFault Disk.Place := do
  Path.check path
  if Path.maxLength ≤ path.utf8ByteSize then throw (.disk .nameTooLong path)
  (s.disk.locate (Path.parts (s.absolute path))).mapError (.disk · path)

def find? (s : Site) (path : String) : Except PathFault (Option Node) :=
  match s.locate path with
  | .ok (_, n) => .ok (some n)
  | .error (.disk .nameTooLong p) => .error (.disk .nameTooLong p)
  | .error _ => .ok none

def hasFolder (s : Site) (path : String) : Except PathFault Bool :=
  (s.find? path).map (·.any (·.isFolder))

def hasFile (s : Site) (path : String) : Except PathFault Bool :=
  (s.find? path).map (·.any (·.isFile))

def has (s : Site) (path : String) : Except PathFault Bool := (s.find? path).map (·.isSome)

/-- The absolute path without links and parents. -/
def resolve (s : Site) (path : String) : Except PathFault String := do
  Path.check path
  let parts := s.disk.resolve (Path.parts (s.absolute path))
  let resolved := Path.build "/" parts
  match s.disk.locate parts with
  | .error .tooManyLinks => throw (.circular resolved)
  | _ => return resolved

def read (s : Site) (path : String) : Except PathFault (List UInt8) := do
  match ← s.locate path with
  | (_, .file bytes _) => return bytes
  | _ => throw (.disk .isFolder path)

/-- Reads a text file strictly: malformed bytes are a fault. -/
def readText (s : Site) (path : String) : Except (PathFault ⊕ Text.Malformed) String :=
  match s.read path with
  | .error f => .error (.inl f)
  | .ok bytes =>
    match Text.decodeStrict bytes with
    | .error m => .error (.inr m)
    | .ok cs => .ok (String.ofList (Text.unifyBreaks cs))

/-! ## Changes -/

def on (s : Site) (disk : Disk) : Site := { s with disk }

def makeFolder (s : Site) (path : String) : Change PathFault Unit := do
  Path.check path
  if Path.maxLength ≤ path.utf8ByteSize then throw (.disk .nameTooLong path)
  match (← get).makeFolder (Path.parts (s.absolute path)) with
  | .error f => throw (.disk f path)
  | .ok disk => set disk

/-- Makes the folder at a path unless it is there. -/
def ensureFolder (s : Site) (path : String) : Change PathFault Unit := do
  try s.makeFolder path
  catch
    | .disk .missing p => throw (.disk .missing p)
    | .disk f p => if !(← (s.on (← get)).hasFolder path) then throw (.disk f p)
    | f => throw f

/-- Makes the folder at a path with those on the way; the parts of the path are given from its
end. -/
def makeFoldersUp (s : Site) (anchor : String) : List String → Change PathFault Unit
  | [] => s.ensureFolder (Path.build anchor [])
  | name :: above => do
    let path := Path.build anchor (name :: above).reverse
    try s.ensureFolder path
    catch
      | .disk .missing _ => do
        makeFoldersUp s anchor above
        s.ensureFolder path
      | f => throw f

/-- Makes the folder at a path with those on the way, unless they are there. -/
def makeFolders (s : Site) (path : String) : Change PathFault Unit :=
  s.makeFoldersUp (Path.anchor path) (Path.parts path).reverse

def write (s : Site) (path : String) (bytes : List UInt8) : Change PathFault Unit := do
  Path.check path
  if Path.maxLength ≤ path.utf8ByteSize then throw (.disk .nameTooLong path)
  match (← get).write (Path.parts (s.absolute path)) bytes with
  | .error f => throw (.disk f path)
  | .ok disk => set disk

/-- Writes a text file in its folder, which is made if need be. A text that cannot be written leaves
the file empty. -/
def writeText (s : Site) (path text : String) : Change (PathFault ⊕ Text.Unwritable) Unit := do
  (s.makeFolders (Path.parent path)).adapt .inl
  match Text.encodeStrict text with
  | .ok bytes => (s.write path bytes).adapt .inl
  | .error u =>
    (s.write path []).adapt .inl
    throw (.inr u)

def setMode (s : Site) (path : String) (mode : Nat) : Change PathFault Unit :=
  modify fun (d : Disk) => d.setMode (Path.parts (s.absolute path)) mode

end Site

end PerfReview
