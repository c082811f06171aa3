import PerfReview.Yaml.Tag
import PerfReview.Yaml.Scalar

/-!
# Writing a map of texts

A map from names to texts, as one field of a document. A text is written plain where it reads back
as itself; between single marks where it has nothing but breaks and visible ASCII; and otherwise
between double marks with escapes. Lines are broken at blanks behind the width of a line, except in
keys. A key that is empty, long or of several lines is announced by a question mark.
-/

namespace PerfReview.Yaml.Printer

/-- The column behind which lines are broken. -/
def width : Nat := 80

abbrev Written := List Char × Nat

def newLine (indent : Nat) : Written := ('\n' :: List.replicate indent ' ', indent)

/-- Visible ASCII and the line feed. -/
def isPlain (c : Char) : Bool := c = '\n' || (' ' ≤ c && c ≤ '~')

/-- Breaks that a text may have; a carriage return is written as an escape. -/
def breaks (c : Char) : Bool := c = '\n' || c = '\x85' || c = '\u2028' || c = '\u2029'

def isMultiline (s : List Char) : Bool := s.any breaks

def anyPair (p : Char → Char → Bool) : List Char → Bool
  | a :: b :: s => p a b || anyPair p (b :: s)
  | _ => false

/-- A text whose outer characters are neither spaces nor breaks. -/
def isTight (s : List Char) : Bool :=
  let outer (c : Option Char) : Bool := c.any fun c => c = ' ' || breaks c
  !outer s.head? && !outer s.getLast?

/-- The text starts with a sign of the notation. -/
def startsWithSign : List Char → Bool
  | [] => false
  | c :: rest =>
    "#,[]\x7b\x7d&*!|>\x27\x22%@\x60".toList.contains c ||
      ((c = '?' || c = ':' || c = '-') && endsWord rest.head?)

/-- The text has a colon before a blank or at its end, or a number sign after a blank. -/
def hasSign (s : List Char) : Bool :=
  anyPair (fun a b => (a = ':' && endsWord (some b)) || (endsWord (some a) && b = '#')) s ||
    s.getLast? = some ':'

def startsLikeSeparator (s : List Char) : Bool :=
  "---".toList.isPrefixOf s || "...".toList.isPrefixOf s

/-- The text reads back as itself without marks. -/
def standsPlain (s : List Char) : Bool :=
  Tag.ofPlain (String.ofList s) = .text && isTight s && s.all isPlain && !isMultiline s &&
    !startsWithSign s && !hasSign s && !startsLikeSeparator s

/-- Single marks suffice. -/
def standsSingle (s : List Char) : Bool :=
  s.all isPlain && !anyPair (fun a b => (breaks a && b = ' ') || (a = ' ' && breaks b)) s

/-- Runs of characters of which a predicate says the same. -/
def runs (kind : Char → Nat) : List Char → List (List Char)
  | [] => []
  | c :: s =>
    match runs kind s with
    | (d :: r) :: rs => if kind c = kind d then (c :: d :: r) :: rs else [c] :: (d :: r) :: rs
    | rs => [c] :: rs

/-- Spaces, breaks, and all else. -/
def kind (c : Char) : Nat := if c = ' ' then 1 else if breaks c then 2 else 0

/-- A single space is where a line may be broken. -/
def breaksAt (mayBreak : Bool) (run : List Char) (column : Nat) : Bool :=
  mayBreak && run = [' '] && width < column

def plainRuns (mayBreak : Bool) (indent : Nat) : Nat → List (List Char) → Written
  | column, [] => ([], column)
  | column, run :: rest =>
    let (text, column) :=
      if breaksAt mayBreak run column then newLine indent else (run, column + run.length)
    let (more, column) := plainRuns mayBreak indent column rest
    (text ++ more, column)

/-- The runs of a text between single marks; the first and the last run are not broken. -/
def singleRuns (mayBreak : Bool) (indent : Nat) (isFirst : Bool) : Nat → List (List Char) → Written
  | column, [] => ([], column)
  | column, run :: rest =>
    let (text, column) : Written :=
      if run.head?.any breaks then
        let (start, column) := newLine indent
        ((if run.head? = some '\n' then ['\n'] else []) ++ run.dropLast ++ start, column)
      else if breaksAt (mayBreak && !isFirst && !rest.isEmpty) run column then newLine indent
      else
        let text := run.flatMap fun c => if c = '\x27' then ['\x27', '\x27'] else [c]
        (text, column + text.length)
    let (more, column) := singleRuns mayBreak indent false column rest
    (text ++ more, column)

def letters : List (Char × Char) := [
  ('\x00', '0'), ('\x07', 'a'), ('\x08', 'b'), ('\t', 't'), ('\n', 'n'), ('\x0b', 'v'),
  ('\x0c', 'f'), ('\r', 'r'), ('\x1b', 'e'), ('\x22', '\x22'), ('\\', '\\'), ('\x85', 'N'),
  ('\xa0', '_'), ('\u2028', 'L'), ('\u2029', 'P')]

def capitalHex (count n : Nat) : List Char := (Text.hexPadded count n).map Char.toUpper

/-- The escape of a character that does not stand for itself. -/
def escape? (c : Char) : Option (List Char) :=
  let n := Text.codeOf c
  match letters.lookup c with
  | some l => some ['\\', l]
  | none =>
    if ' ' ≤ c && c ≤ '~' then none
    else if n < 0x100 then some ('\\' :: 'x' :: capitalHex 2 n)
    else if n < 0x10000 then some ('\\' :: 'u' :: capitalHex 4 n)
    else some ('\\' :: 'U' :: capitalHex 8 n)

/-- The characters of a text between double marks. `fresh` says that the character before was an
escape, `isFirst` that there was none. A broken line ends in a backslash, and a space at the start
of the next one is escaped. -/
def doubleChars (mayBreak : Bool) (indent : Nat) (isFirst fresh : Bool) :
    Nat → List Char → Written
  | column, [] => ([], column)
  | column, c :: rest =>
    let inside := mayBreak && !isFirst && !rest.isEmpty
    let onNewLine (next : Option Char) : Written :=
      let (start, column) := newLine indent
      if next = some ' ' then ('\\' :: start ++ ['\\'], column + 1) else ('\\' :: start, column)
    match escape? c with
    | some e =>
      let column := column + e.length
      let (turn, column) :=
        if inside && width < column - 1 then onNewLine rest.head? else ([], column)
      let (more, column) := doubleChars mayBreak indent false true column rest
      (e ++ turn ++ more, column)
    | none =>
      let (turn, column) :=
        if inside && (c = ' ' || fresh) && width < column then onNewLine (some c) else ([], column)
      let (more, column) := doubleChars mayBreak indent false false (column + 1) rest
      (turn ++ c :: more, column)

/-- The text of a scalar that starts at a column. -/
def scalar (isKey : Bool) (indent column : Nat) (s : List Char) : Written :=
  if standsPlain s then plainRuns (!isKey) indent column (runs kind s)
  else if standsSingle s && !(isKey && isMultiline s) then
    let (text, column) := singleRuns (!isKey) indent true (column + 1) (runs kind s)
    ('\x27' :: text ++ ['\x27'], column + 1)
  else
    let (text, column) := doubleChars (!isKey) indent true false (column + 1) s
    ('\x22' :: text ++ ['\x22'], column + 1)

/-- The most characters of a key on the line of its value. -/
def maxKey : Nat := 122

/-- An entry of the map on lines of its own. -/
def entry (key value : String) : List Char :=
  let k := key.toList
  let v := value.toList
  if !k.isEmpty && k.length ≤ maxKey && !isMultiline k then
    let (text, column) := scalar true 4 2 k
    ' ' :: ' ' :: text ++ ':' :: ' ' :: (scalar false 4 (column + 2) v).1 ++ ['\n']
  else
    "  ? ".toList ++ (scalar false 4 4 k).1 ++ "\n  : ".toList ++ (scalar false 4 4 v).1 ++ ['\n']

/-- The document with a map under a name; the entries are sorted by their keys. In keys with surrogates
these are sorted as their stand-ins, behind the characters from U+E000 on. -/
def document (name : String) (entries : List (String × String)) : String :=
  let sorted := entries.mergeSort fun a b => a.1 ≤ b.1
  String.ofList (name.toList ++ ':' :: '\n' :: sorted.flatMap fun (k, v) => entry k v)

end PerfReview.Yaml.Printer
