import PerfReview.Assoc
import PerfReview.Source
import PerfReview.Text.Blank
import PerfReview.Text.Search

/-!
# Citations

How the model cites files, and the file that a citation means. A citation may be wrapped in stars,
back quotes or quotation marks, layer in layer with blanks between, may have backslashes for
slashes, and may start with the folder itself or with the path of the reviewed folder.
-/

namespace PerfReview

namespace Citation

/-- The marks that a citation may stand between. -/
def wrappers : List (List Char) := [['*', '*'], ['\x60'], ['\x22'], ['\x27']]

/-- The trimmed content of a text that stands between two copies of a mark. -/
def unwrap? (mark s : List Char) : Option (List Char) :=
  if mark.isPrefixOf s && mark.isSuffixOf s && 2 * mark.length ≤ s.length then
    some (Text.trim ((s.drop mark.length).take (s.length - 2 * mark.length)))
  else none

/-- Takes off each kind of mark once, where it is the outermost at its turn. -/
def peelRound (s : List Char) : List Char := wrappers.foldl (fun s w => (unwrap? w s).getD s) s

/-- Takes off marks until none is left; the fuel bounds the rounds. -/
def peel : Nat → List Char → List Char
  | 0, s => s
  | fuel + 1, s =>
    let s' := peelRound s
    if s'.length = s.length then s else peel fuel s'

/-- Drops the parts in front that name the folder itself. -/
def dropHere : List Char → List Char
  | '.' :: '/' :: s => dropHere s
  | s => s

def slashes (s : List Char) : List Char := s.map fun c => if c = '\\' then '/' else c

def plain (s : List Char) : List Char :=
  let s := Text.trim s
  dropHere (slashes (peel s.length s))

end Citation

def normalizeCitation (s : String) : String := String.ofList (Citation.plain s.toList)

/-- The files that an answer may cite, by their paths, and the folder they lie in. -/
structure Index where
  files : List (String × Source)
  root : Option String

namespace Index

/-- The index of a list of files; of two with one path the later counts. -/
def ofFiles (files : List Source) (root : Option String) : Index :=
  ⟨Assoc.ofPairs (files.map fun f => (f.relative, f)), root⟩

def paths (ix : Index) : List String := ix.files.map (·.1)

/-- The path of the folder with one slash at its end. -/
def rootPath (root : String) : List Char :=
  (root.toList.reverse.dropWhile (· = '/')).reverse ++ ['/']

/-- The file stored under a plain path, or under its part below the folder. -/
def find? (ix : Index) (path : List Char) : Option Source :=
  if path.isEmpty then none
  else
    match Assoc.get? ix.files (String.ofList path) with
    | some f => some f
    | none =>
      match ix.root, path with
      | some root, '/' :: _ =>
        (Text.dropHead? (rootPath root) path).bind fun rest =>
          Assoc.get? ix.files (String.ofList rest)
      | _, _ => none

def resolve (ix : Index) (citation : String) : Option Source :=
  ix.find? (Citation.plain citation.toList)

end Index

end PerfReview
