import PerfReview.Assoc
import PerfReview.Path
import PerfReview.Text.Quoted

/-!
# The file system

A tree of folders, files and symbolic links, with the ways of finding an entry by the parts of its
path. `Disk.locate` follows every link, fails where a part is missing, and takes the parent of a
folder only; a link restarts the walk, and `maxLinks` bounds the restarts. `Disk.resolve` follows the
links that are there, keeps the rest of the path as it is, and stops at a link that leads back to
itself.
-/

namespace PerfReview

/-- An entry of the file system. The names in a folder are texts: one whose bytes are not UTF-8 has no
entry here. -/
inductive Node where
  | file (bytes : List UInt8) (mode : Nat)
  | folder (entries : List (String × Node))
  | link (target : String)

namespace Node

def isFolder : Node → Bool
  | folder _ => true
  | _ => false

def isFile : Node → Bool
  | file .. => true
  | _ => false

/-- The entry found by descending through folders, links not followed. -/
def at? : Node → List String → Option Node
  | n, [] => some n
  | .folder entries, p :: ps => (Assoc.get? entries p).bind (·.at? ps)
  | _, _ :: _ => none

/-- The node with `new` put at a path below it, folders made on the way. -/
def insert (new : Node) : List String → Node → Node
  | [], _ => new
  | p :: ps, .folder entries =>
    .folder (Assoc.put p (insert new ps ((Assoc.get? entries p).getD (.folder []))) entries)
  | p :: ps, _ => .folder [(p, insert new ps (.folder []))]

mutual

def linkCount : Node → Nat
  | .link _ => 1
  | .folder entries => linkCounts entries
  | .file .. => 0

def linkCounts : List (String × Node) → Nat
  | [] => 0
  | (_, n) :: rest => linkCount n + linkCounts rest

end

end Node

/-- Why the file system refused an operation. -/
inductive DiskFault where
  | missing
  | taken
  | notFolder
  | isFolder
  | nameTooLong
  | tooManyLinks
  deriving DecidableEq, Repr

namespace DiskFault

def reason : DiskFault → String
  | missing => "[Errno 2] No such file or directory"
  | taken => "[Errno 17] File exists"
  | notFolder => "[Errno 20] Not a directory"
  | isFolder => "[Errno 21] Is a directory"
  | nameTooLong => "[Errno 36] File name too long"
  | tooManyLinks => "[Errno 40] Too many levels of symbolic links"

def message (f : DiskFault) (path : String) : String := s!"{f.reason}: {Text.quoted path}"

end DiskFault

/-- The file system: its top folder. -/
structure Disk where
  top : Node

namespace Disk

/-- The links that may be followed on one path. -/
def maxLinks : Nat := 40

/-- The most bytes of a name in a folder. -/
def maxName : Nat := 255

/-- Where a path leads: the parts of a path without links, and the entry there. -/
abbrev Place := List String × Node

/-- Follows the parts of a path from the folder `here`. A link is handed to `onLink` with the folder
that it starts from and the parts to follow; `fresh` is the entry to put where the last part is
missing, if any. -/
def follow (d : Disk) (fresh : Option Node)
    (onLink : List String → List String → Except DiskFault Place) (here : List String) :
    List String → Except DiskFault Place
  | [] =>
    match d.top.at? here with
    | some n => .ok (here, n)
    | none => .error .missing
  | p :: ps =>
    match d.top.at? here with
    | some (.folder entries) =>
      if p = "." then d.follow fresh onLink here ps
      else if p = ".." then d.follow fresh onLink here.dropLast ps
      else if maxName < p.utf8ByteSize then .error .nameTooLong
      else
        match Assoc.get? entries p with
        | some (.link target) =>
          onLink (if Path.isAbsolute target then [] else here) (Path.steps target ++ ps)
        | some (.file bytes mode) =>
          match ps with
          | [] => .ok (here ++ [p], .file bytes mode)
          | _ :: _ => .error .notFolder
        | some (.folder _) => d.follow fresh onLink (here ++ [p]) ps
        | none =>
          match ps, fresh with
          | [], some n => .ok (here ++ [p], n)
          | _, _ => .error .missing
    | some _ => .error .notFolder
    | none => .error .missing

/-- Follows the parts of a path through at most `links` links. -/
def followLinks (d : Disk) (fresh : Option Node) :
    Nat → List String → List String → Except DiskFault Place
  | 0 => d.follow fresh fun _ _ => .error .tooManyLinks
  | links + 1 => d.follow fresh (d.followLinks fresh links)

/-- The entry that the parts of an absolute path lead to. -/
def locate (d : Disk) (parts : List String) : Except DiskFault Place :=
  d.followLinks none maxLinks [] parts

/-- Follows the links along the parts of a path and keeps the parts that lead nowhere. `onLink`
follows a link, whose place it is given; where that leads back to the link, the rest is kept. The
second component tells that no link led back. -/
def settle (d : Disk) (onLink : List String → String → List String × Bool) (here : List String) :
    List String → List String × Bool
  | [] => (here, true)
  | p :: ps =>
    if p = "." then d.settle onLink here ps
    else if p = ".." then d.settle onLink here.dropLast ps
    else
      match d.top.at? (here ++ [p]) with
      | some (.link target) =>
        match onLink (here ++ [p]) target with
        | (place, true) => d.settle onLink place ps
        | (place, false) => (place ++ ps, false)
      | _ => d.settle onLink (here ++ [p]) ps

/-- Follows the parts of a path through links, those being followed kept in `opened`. -/
def settleLinks (d : Disk) : Nat → List (List String) → List String → List String →
    List String × Bool
  | 0, _ => fun here ps => (here ++ ps, false)
  | fuel + 1, opened =>
    d.settle fun link target =>
      if link ∈ opened then (link, false)
      else
        d.settleLinks fuel (link :: opened) (if Path.isAbsolute target then [] else link.dropLast)
          (Path.parts target)

/-- The parts of the path without links and parents. -/
def resolve (d : Disk) (parts : List String) : List String :=
  Path.level (d.settleLinks (d.top.linkCount + 1) [] [] parts).1

/-- What an absolute path leads to, if it is not too long. -/
def lookup (d : Disk) (path : String) : Except DiskFault Place :=
  if Path.maxLength ≤ path.utf8ByteSize then .error .nameTooLong else d.locate (Path.parts path)

def leadsToFolder (d : Disk) (path : String) : Bool :=
  match d.lookup path with
  | .ok (_, n) => n.isFolder
  | .error _ => false

/-- The bytes of the file that an absolute path leads to. -/
def read (d : Disk) (path : String) : Except DiskFault (List UInt8) :=
  match d.lookup path with
  | .ok (_, .file bytes _) => .ok bytes
  | .ok _ => .error .isFolder
  | .error f => .error f

/-- Makes a folder in one that is there. -/
def makeFolder (d : Disk) (parts : List String) : Except DiskFault Disk :=
  match parts.getLast? with
  | none => .error .taken
  | some name =>
    match d.locate parts.dropLast with
    | .error f => .error f
    | .ok (place, .folder entries) =>
      if name = ".." then .error .taken
      else if maxName < name.utf8ByteSize then .error .nameTooLong
      else if (Assoc.get? entries name).isSome then .error .taken
      else .ok ⟨.insert (.folder []) (place ++ [name]) d.top⟩
    | .ok _ => .error .notFolder

/-- Writes a file, which keeps its mode if it is there; its folder must be there. -/
def write (d : Disk) (parts : List String) (bytes : List UInt8) : Except DiskFault Disk :=
  match d.followLinks (some (.file [] 0o644)) maxLinks [] parts with
  | .error f => .error f
  | .ok (place, .file _ mode) => .ok ⟨.insert (.file bytes mode) place d.top⟩
  | .ok _ => .error .isFolder

def setMode (d : Disk) (parts : List String) (mode : Nat) : Disk :=
  match d.locate parts with
  | .ok (place, .file bytes _) => ⟨.insert (.file bytes mode) place d.top⟩
  | _ => d

/-- Puts an entry at a path, making the folders on the way. -/
def place (d : Disk) (path : String) (n : Node) : Disk := ⟨.insert n (Path.parts path) d.top⟩

def empty : Disk := ⟨.folder []⟩

end Disk

end PerfReview
