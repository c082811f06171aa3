import PerfReview.Text.Lines
import PerfReview.Text.Search

/-!
# Paths

Paths as texts. The normal form of a path has no empty parts and no parts that name the folder
itself; parts that name the parent stay, since what they mean depends on links. A path that starts
with exactly two slashes keeps both.
-/

namespace PerfReview.Path

/-- The slashes that an absolute path starts with. -/
def anchor (p : String) : String :=
  match p.toList with
  | '/' :: '/' :: '/' :: _ => "/"
  | '/' :: '/' :: _ => "//"
  | '/' :: _ => "/"
  | _ => ""

def isAbsolute (p : String) : Bool := p.toList.head? = some '/'

def parts (p : String) : List String :=
  ((Text.splitOn '/' p.toList).map String.ofList).filter fun s => s ≠ "" && s ≠ "."

def build (anchor : String) (parts : List String) : String :=
  if anchor = "" && parts.isEmpty then "." else anchor ++ String.intercalate "/" parts

def normal (p : String) : String := build (anchor p) (parts p)

/-- A path below another, unless it is absolute itself. -/
def join (base p : String) : String :=
  if isAbsolute p then normal p else build (anchor base) (parts base ++ parts p)

def name (p : String) : String := (parts p).getLast?.getD ""

def parent (p : String) : String := build (anchor p) (parts p).dropLast

/-- The extension of a name, with its dot; a dot at either end of the name makes none. -/
def extension (name : String) : String :=
  match Text.splitLast? '.' name.toList with
  | some (_ :: _, c :: after) => String.ofList ('.' :: c :: after)
  | _ => ""

/-- The steps that the target of a link takes: as its parts, but a slash at the end asks for a folder,
which the last step `.` stands for, and so do parts that name the folder itself. -/
def steps (target : String) : List String :=
  let pieces := (Text.splitOn '/' target.toList).map String.ofList
  pieces.dropLast.filter (· ≠ "") ++ [pieces.getLast?.getD ""].map fun s => if s = "" then "." else s

/-- The parts with those that name the parent taken off against the part before. -/
def level (parts : List String) : List String :=
  parts.foldl (fun done p => if p = ".." then done.dropLast else done ++ [p]) []

def below? (folder p : String) : Option String :=
  let f := parts folder
  if anchor folder = anchor p && f.isPrefixOf (parts p) then
    some (build "" ((parts p).drop f.length))
  else none

/-- The bytes that a path may not reach. -/
def maxLength : Nat := 4096

end PerfReview.Path
