/-!
# Lines

Three readings of a text as lines. `splitLines` is the reading a listing numbers: every line break
of the character standard ends a line, a carriage return with a line feed is one break, and a break
at the end opens no further line. `splitFeeds` cuts at line feeds alone and always yields one piece
more than there are feeds. `unifyBreaks` and `foldReturns` turn the breaks of other systems into
line feeds.
-/

namespace PerfReview.Text

/-- Characters that end a line. -/
def isLineBreak (c : Char) : Bool :=
  let n := c.toNat
  (10 ≤ n && n ≤ 13) || (28 ≤ n && n ≤ 30) || n == 0x85 || n == 0x2028 || n == 0x2029

/-- Puts a character in front of the first line, opening one if there is none. -/
def extendFirst (c : Char) : List (List Char) → List (List Char)
  | [] => [[c]]
  | l :: ls => (c :: l) :: ls

/-- One character in front of a text whose lines are known; the flag says whether that text starts
with a line feed. -/
def lineStep (c : Char) (rest : Bool × List (List Char)) : Bool × List (List Char) :=
  if c = '\r' && rest.1 then (false, rest.2)
  else if isLineBreak c then (c = '\n', [] :: rest.2)
  else (false, extendFirst c rest.2)

def splitLines (s : List Char) : List (List Char) := (s.foldr lineStep (false, [])).2

def lines (s : String) : List String := (splitLines s.toList).map String.ofList

def lineCount (s : String) : Nat := (splitLines s.toList).length

/-- The pieces of a text between the occurrences of a separator. -/
def splitOn (separator : Char) (s : List Char) : List (List Char) :=
  s.foldr (fun c ls => if c = separator then [] :: ls else extendFirst c ls) [[]]

def splitFeeds (s : List Char) : List (List Char) := splitOn '\n' s

/-- One character in front of a text in which every break is a line feed; the flag says whether the
text read so far starts with a line feed. -/
def unifyStep (c : Char) (rest : Bool × List Char) : Bool × List Char :=
  if c = '\r' then (false, if rest.1 then rest.2 else '\n' :: rest.2)
  else (c = '\n', c :: rest.2)

/-- Every carriage return, and every carriage return with its line feed, becomes a line feed. -/
def unifyBreaks (s : List Char) : List Char := (s.foldr unifyStep (false, [])).2

def foldStep (c : Char) (rest : Bool × List Char) : Bool × List Char :=
  if c = '\r' && rest.1 then (false, rest.2) else (c = '\n', c :: rest.2)

/-- A carriage return before a line feed is dropped; one that stands alone stays. -/
def foldReturns (s : List Char) : List Char := (s.foldr foldStep (false, [])).2

theorem extendFirst_ne_nil (c : Char) (ls : List (List Char)) : extendFirst c ls ≠ [] := by
  cases ls <;> simp [extendFirst]

theorem splitOn_ne_nil (separator : Char) (s : List Char) : splitOn separator s ≠ [] := by
  cases s with
  | nil => simp [splitOn]
  | cons c s =>
    by_cases h : c = separator <;> simp [splitOn, h, extendFirst_ne_nil]

end PerfReview.Text
