import PerfReview.Text.Blank
import PerfReview.Text.Lines
import PerfReview.Text.Search

/-!
# Issue bodies

The fields below a header line. Each field starts with its label on a line of its own, blanks
before it allowed, and goes up to the label of the next one; the code stands between two fence
lines. Of several readings the earliest label counts each time, with one exception: a code block
that closes at once is read as such only if no later fence can close it.
-/

namespace PerfReview.Response

abbrev Line := List Char

/-- The fields of an issue as written, with their outer white space. -/
structure Body where
  description : List Char
  impact : List Char
  code : List Char
  solution : List Char
  expected : List Char
  deriving DecidableEq, Repr

namespace Body

def joinLines (ls : List Line) : List Char := (ls.intersperse ['\n']).flatten

/-- The text after a label that a line starts with. -/
def afterLabel? (label : String) (l : Line) : Option Line :=
  Text.dropHead? (label.toList ++ [':']) (Text.trimStart l)

def isBlankLine (l : Line) : Bool := l.all Text.isBlank

/-- The field whose label is on the first line that is not blank: the rest of that line, and the
lines after it. -/
def atLabel? (label : String) (ls : List Line) : Option (Line × List Line) :=
  match ls.dropWhile isBlankLine with
  | [] => none
  | l :: rest => (afterLabel? label l).map (·, rest)

/-- The lines up to the first one with a label, the rest of that line, and the lines after it. -/
def upToLabel? (label : String) : List Line → Option (List Line × Line × List Line)
  | [] => none
  | l :: ls =>
    match afterLabel? label l with
    | some rest => some ([], rest, ls)
    | none => (upToLabel? label ls).map fun (before, rest, after) => (l :: before, rest, after)

def fence : List Char := ['\x60', '\x60', '\x60']

/-- What follows the fence of a line that starts with one. -/
def afterFence? (l : Line) : Option Line := Text.dropHead? fence (l.dropWhile Text.isGap)

/-- A fence with nothing after it. -/
def isClosing (l : Line) : Bool :=
  match afterFence? l with
  | some rest => rest.all Text.isGap
  | none => false

def ending? (ls : List Line) : Option (List Char × List Char) := do
  let (first, ls) ← atLabel? "Solution" ls
  let (more, expected, _) ← upToLabel? "Expected Improvement" ls
  return (joinLines (first :: more), expected)

/-- The lines up to the first closing fence that an ending follows, and that ending. -/
def upToClosing? : List Line → Option (List Line × List Char × List Char)
  | [] => none
  | l :: ls =>
    match if isClosing l then ending? ls else none with
    | some (solution, expected) => some ([], solution, expected)
    | none => (upToClosing? ls).map fun (code, rest) => (l :: code, rest)

/-- The code, the solution and the expected improvement, from the line after the opening fence. -/
def fenced? : List Line → Option (List Char × List Char × List Char)
  | [] => none
  | l :: ls =>
    match upToClosing? ls with
    | some (code, rest) => some (joinLines (l :: code), rest)
    | none => if isClosing l then (ending? ls).map ([], ·) else none

/-- The code label is alone on its line. -/
def isCodeLabel (l : Line) : Bool :=
  match afterLabel? "Code Context" l with
  | some rest => rest.all Text.isGap
  | none => false

/-- The code block that follows a code label, if the lines start with its opening fence. -/
def block? : List Line → Option (List Char × List Char × List Char)
  | [] => none
  | l :: ls => if (afterFence? l).isSome then fenced? ls else none

/-- The lines up to the first code label with a code block, and what that block gives. -/
def upToCode? : List Line → Option (List Line × List Char × List Char × List Char)
  | [] => none
  | l :: ls =>
    match if isCodeLabel l then block? ls else none with
    | some rest => some ([], rest)
    | none => (upToCode? ls).map fun (before, rest) => (l :: before, rest)

/-- Reads the fields from the lines below a header. -/
def ofLines? (ls : List Line) : Option Body := do
  let (first, ls) ← atLabel? "Description" ls
  let (description, impact, ls) ← upToLabel? "Impact" ls
  let (more, code, solution, expected) ← upToCode? ls
  return ⟨joinLines (first :: description), joinLines (impact :: more), code, solution, expected⟩

end Body

end PerfReview.Response
