/-!
# A place in a document

The characters to come with the line and column of the first of them. Columns count characters from
the start of the line; a byte-order mark has no width. Five characters break lines, and a carriage
return with its line feed is one break.
-/

namespace PerfReview.Yaml

/-- Characters that break lines. -/
def isBreak (c : Char) : Bool :=
  c = '\n' || c = '\r' || c = '\x85' || c = '\u2028' || c = '\u2029'

def endsLine : Option Char → Bool
  | none => true
  | some c => isBreak c

/-- The line ends here, or a space stands here. -/
def endsField (c : Option Char) : Bool := endsLine c || c = some ' '

/-- The line ends here, or a space or a tab stands here. -/
def endsWord (c : Option Char) : Bool := endsField c || c = some '\t'

structure Cursor where
  rest : List Char
  index : Nat := 0
  line : Nat := 0
  column : Nat := 0
  deriving Repr

namespace Cursor

def peek (c : Cursor) : Option Char := c.rest.head?

def next (c : Cursor) : Cursor :=
  match c.rest with
  | [] => c
  | ch :: rest =>
    if ch = '\r' && rest.head? = some '\n' then
      { c with rest, index := c.index + 1, column := c.column + 1 }
    else if isBreak ch then { rest, index := c.index + 1, line := c.line + 1, column := 0 }
    else
      { c with
        rest, index := c.index + 1
        column := if ch = '\uFEFF' then c.column else c.column + 1 }

def skip : Nat → Cursor → Cursor
  | 0, c => c
  | n + 1, c => skip n c.next

/-- The characters in front that satisfy `p`, and the place after them. -/
def span (p : Char → Bool) (c : Cursor) : List Char × Cursor :=
  let taken := c.rest.takeWhile p
  (taken, c.skip taken.length)

def skipSpaces (c : Cursor) : Cursor := (c.span (· = ' ')).2

/-- Skips a comment up to the end of its line. -/
def skipComment (c : Cursor) : Cursor :=
  if c.peek = some '#' then (c.span fun ch => !isBreak ch).2 else c

/-- Reads a line break: a line feed, except for the two separators, which stay what they are. -/
def takeBreak? (c : Cursor) : Option (Char × Cursor) :=
  match c.rest with
  | '\r' :: '\n' :: _ => some ('\n', c.skip 2)
  | ch :: _ =>
    if ch = '\u2028' || ch = '\u2029' then some (ch, c.next)
    else if isBreak ch then some ('\n', c.next)
    else none
  | [] => none

/-- A line of three dashes or three points, which separates documents, starts here. -/
def isSeparator (c : Cursor) : Bool :=
  match c.rest with
  | '-' :: '-' :: '-' :: rest | '.' :: '.' :: '.' :: rest => endsWord rest.head?
  | _ => false

end Cursor

end PerfReview.Yaml
