import PerfReview.Issue
import PerfReview.Text.Blank
import PerfReview.Text.Digit
import PerfReview.Text.Search

/-!
# Header lines

The line that opens an issue in an answer of the model: an optional list bullet, the marker of the
severity, the cited path, a colon and two line numbers with a hyphen between. The path may hold
colons and blanks of its own; the last colon of the line is the one before the numbers.
-/

namespace PerfReview.Response

/-- The parts of a header line; the line numbers are still digits. -/
structure Header where
  severity : Severity
  path : List Char
  first : List Char
  last : List Char
  deriving DecidableEq, Repr

namespace Header

/-- What follows the blanks at the front of a text, if there are any. -/
def afterGap? : List Char → Option (List Char)
  | c :: s => if Text.isGap c then some (s.dropWhile Text.isGap) else none
  | [] => none

def afterBullet? : List Char → Option (List Char)
  | '-' :: s => afterGap? s
  | '*' :: s => afterGap? s
  | s =>
    match s.span Text.isDigit with
    | (_ :: _, c :: rest) => if c = '.' || c = ')' then afterGap? rest else none
    | _ => none

/-- The severity of the marker at the front of a text, and what follows the marker. -/
def marker? : List Char → Option (Severity × List Char)
  | '🚨' :: s => some (.critical, s)
  | '⚠' :: '\uFE0F' :: s => some (.warning, s)
  | '⚠' :: s => some (.warning, s)
  | '💡' :: s => some (.suggestion, s)
  | _ => none

/-- The two runs of digits that a text is made of, a hyphen between them and blanks around. -/
def span? (s : List Char) : Option (List Char × List Char) :=
  match (s.dropWhile Text.isGap).span Text.isDigit with
  | (d :: first, rest) =>
    match rest.dropWhile Text.isGap with
    | '-' :: rest =>
      match (rest.dropWhile Text.isGap).span Text.isDigit with
      | (e :: last, rest) =>
        if rest.all Text.isGap then some (d :: first, e :: last) else none
      | _ => none
    | _ => none
  | _ => none

/-- A text that is not empty and neither begins nor ends with white space. -/
def isPath (s : List Char) : Bool :=
  match s.head?, s.getLast? with
  | some c, some d => !Text.isBlank c && !Text.isBlank d
  | _, _ => false

/-- The path and the line numbers after the marker. -/
def citation? (s : List Char) : Option (List Char × List Char × List Char) := do
  let (before, after) ← Text.splitLast? ':' s
  let (first, last) ← span? after
  let path := (before.reverse.dropWhile Text.isGap).reverse
  if isPath path then some (path, first, last) else none

def ofLine? (line : List Char) : Option Header := do
  let s := line.dropWhile Text.isGap
  let (severity, s) ← marker? ((afterBullet? s).getD s)
  let (path, first, last) ← citation? (← afterGap? s)
  return ⟨severity, path, first, last⟩

end Header

end PerfReview.Response
