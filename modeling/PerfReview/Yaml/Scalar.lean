import PerfReview.Yaml.Cursor
import PerfReview.Yaml.Fault
import PerfReview.Text.Surrogate

/-!
# Scalars

The texts of a document: plain ones, which end where the notation goes on, ones between single or
double marks, and blocks of indented lines. A line break inside a scalar is folded: one break stands
for a space, and of several the first is dropped. Every loop moves forward through the text; its fuel
is longer than what is left of the text.
-/

namespace PerfReview.Yaml

/-- A piece of text and the place after it. -/
abbrev Scanned := Except Fault (List Char × Cursor)

/-- Line breaks with the blanks before and between them: the text they stand for. -/
def folded (first : Char) (more : List Char) : List Char :=
  if first ≠ '\n' then first :: more
  else if more.isEmpty then [' ']
  else more

namespace Quoted

def letters : List (Char × Char) := [
  ('0', '\x00'), ('a', '\x07'), ('b', '\x08'), ('t', '\t'), ('\t', '\t'), ('n', '\n'),
  ('v', '\x0b'), ('f', '\x0c'), ('r', '\r'), ('e', '\x1b'), (' ', ' '), ('\x22', '\x22'),
  ('\\', '\\'), ('/', '/'), ('N', '\x85'), ('_', '\xa0'), ('L', '\u2028'), ('P', '\u2029')]

/-- The number of digits of the escapes by code point. -/
def digitCounts : List (Char × Nat) := [('x', 2), ('u', 4), ('U', 8)]

def hexDigit? (c : Char) : Option Nat :=
  if '0' ≤ c && c ≤ '9' then some (c.toNat - 48)
  else if 'a' ≤ c && c ≤ 'f' then some (c.toNat - 87)
  else if 'A' ≤ c && c ≤ 'F' then some (c.toNat - 55)
  else none

def hexValue? (n : Nat) (s : List Char) : Option Nat :=
  if (s.take n).length < n then none
  else ((s.take n).mapM hexDigit?).map fun ds => ds.foldl (fun v d => v * 16 + d) 0

def character (code : Nat) : Except Fault Char :=
  if 0x80000000 ≤ code then .error .noWord
  else if 0x110000 ≤ code then .error .noCharacter
  else .ok (Text.ofCode code)

/-- The breaks and blanks at the start of a line within marks. -/
def breaks : Nat → Cursor → Scanned
  | 0, _ => .error .malformed
  | fuel + 1, c =>
    if c.isSeparator then .error .malformed
    else
      let c := (c.span fun ch => ch = ' ' || ch = '\t').2
      match c.takeBreak? with
      | some (b, c) => (breaks fuel c).map fun (more, c) => (b :: more, c)
      | none => .ok ([], c)

def escape (fuel : Nat) (c : Cursor) : Scanned :=
  match c.peek with
  | none => .error .malformed
  | some ch =>
    match letters.lookup ch with
    | some v => .ok ([v], c.next)
    | none =>
      match digitCounts.lookup ch with
      | some n =>
        let c := c.next
        match hexValue? n c.rest with
        | some code => (character code).map fun v => ([v], c.skip n)
        | none => .error .malformed
      | none =>
        match c.takeBreak? with
        | some (_, c) => breaks fuel c
        | none => .error .malformed

def body (isDouble : Bool) : Nat → Cursor → Scanned
  | 0, _ => .error .malformed
  | fuel + 1, c =>
    let goOn (s : List Char) (c : Cursor) : Scanned :=
      (body isDouble fuel c).map fun (t, c) => (s ++ t, c)
    match c.rest with
    | [] => .error .malformed
    | '\x27' :: rest =>
      if isDouble then goOn ['\x27'] c.next
      else if rest.head? = some '\x27' then goOn ['\x27'] (c.skip 2)
      else .ok ([], c.next)
    | '\x22' :: _ => if isDouble then .ok ([], c.next) else goOn ['\x22'] c.next
    | '\\' :: _ =>
      if isDouble then
        match escape fuel c.next with
        | .error f => .error f
        | .ok (s, c) => goOn s c
      else goOn ['\\'] c.next
    | ch :: _ =>
      if ch = ' ' || ch = '\t' || isBreak ch then
        let (gap, c) := c.span fun ch => ch = ' ' || ch = '\t'
        match c.takeBreak? with
        | none => goOn gap c
        | some (b, c) =>
          match breaks fuel c with
          | .error f => .error f
          | .ok (more, c) => goOn (folded b more) c
      else
        let (s, c) := c.span fun ch =>
          !(ch = '\x27' || ch = '\x22' || ch = '\\' || ch = ' ' || ch = '\t' || isBreak ch)
        goOn s c

def scan (fuel : Nat) (isDouble : Bool) (c : Cursor) : Scanned := body isDouble fuel c.next

end Quoted

namespace Plain

/-- A plain text ends before the character `ch` with the characters `after` behind it. -/
def endsBefore (inFlow : Bool) (ch : Char) (after : List Char) : Bool :=
  endsWord (some ch) ||
    (ch = ':' &&
      (endsWord after.head? ||
        (inFlow && after.head?.any fun c => c ∈ [',', '[', ']', '\x7b', '\x7d']))) ||
    (inFlow && ch ∈ [',', '?', '[', ']', '\x7b', '\x7d'])

def wordLength (inFlow : Bool) : List Char → Nat
  | [] => 0
  | ch :: rest => if endsBefore inFlow ch rest then 0 else wordLength inFlow rest + 1

/-- The breaks and spaces that follow a break; nothing is left of them before a separator of
documents. -/
def breaks : Nat → Cursor → Option (List Char) × Cursor
  | 0, c => (none, c)
  | fuel + 1, c =>
    if c.peek = some ' ' then breaks fuel c.next
    else
      match c.takeBreak? with
      | none => (some [], c)
      | some (b, c) =>
        if c.isSeparator then (none, c)
        else
          let (more, c) := breaks fuel c
          (more.map (b :: ·), c)

/-- What stands between two words: its text, the place after it, and whether it breaks the line. -/
def gap (fuel : Nat) (c : Cursor) : List Char × Cursor × Bool :=
  let (spaces, c) := c.span (· = ' ')
  match c.takeBreak? with
  | none => (spaces, c, false)
  | some (b, c) =>
    if c.isSeparator then ([], c, true)
    else
      match breaks fuel c with
      | (none, c) => ([], c, true)
      | (some more, c) => (folded b more, c, true)

/-- The words of a plain text that is indented by `indent`; the flag says that the last gap broke
the line. -/
def words (inFlow : Bool) (indent : Nat) : Nat → List Char → Cursor → List Char × Cursor × Bool
  | 0, _, c => ([], c, false)
  | fuel + 1, before, c =>
    let length := if c.peek = some '#' then 0 else wordLength inFlow c.rest
    if length = 0 then ([], c, false)
    else
      let word := before ++ c.rest.take length
      let (between, c, broke) := gap fuel (c.skip length)
      if between.isEmpty || c.peek = some '#' || (!inFlow && c.column < indent) then (word, c, broke)
      else
        let (more, c', broke') := words inFlow indent fuel between c
        if more.isEmpty then (word, c', broke) else (word ++ more, c', broke')

/-- A plain text; the flag says that a key may follow it. -/
def scan (fuel : Nat) (inFlow : Bool) (indent : Nat) (c : Cursor) : List Char × Cursor × Bool :=
  words inFlow indent fuel [] c

end Plain

namespace Block

/-- What becomes of the line breaks at the end of a block. -/
inductive Chomping where
  | clip
  | strip
  | keep
  deriving DecidableEq, Repr

def chomping? : Option Char → Option Chomping
  | some '+' => some .keep
  | some '-' => some .strip
  | _ => none

def increment? (c : Option Char) : Option Nat :=
  c.bind fun ch => if '0' ≤ ch && ch ≤ '9' then some (ch.toNat - 48) else none

/-- The signs behind the sign of a block: chomping and indentation in either order. -/
def indicators (c : Cursor) : Chomping × Option Nat × Cursor :=
  match chomping? c.peek with
  | some ch =>
    match increment? c.next.peek with
    | some n => (ch, some n, c.skip 2)
    | none => (ch, none, c.next)
  | none =>
    match increment? c.peek with
    | some n =>
      match chomping? c.next.peek with
      | some ch => (ch, some n, c.skip 2)
      | none => (.clip, some n, c.next)
    | none => (.clip, none, c)

/-- The rest of a line that holds nothing but a comment. -/
def idleLine (c : Cursor) : Except Fault Cursor :=
  let c := c.skipSpaces.skipComment
  if endsLine c.peek then .ok ((c.takeBreak?.map (·.2)).getD c) else .error .malformed

/-- The breaks in front of the first line, and the deepest indentation among them. -/
def leading : Nat → Nat → Cursor → List Char × Nat × Cursor
  | 0, deepest, c => ([], deepest, c)
  | fuel + 1, deepest, c =>
    if c.peek = some ' ' then leading fuel (max deepest c.next.column) c.next
    else
      match c.takeBreak? with
      | none => ([], deepest, c)
      | some (b, c) =>
        let (more, deepest, c) := leading fuel deepest c
        (b :: more, deepest, c)

def indentTo (indent : Nat) : Nat → Cursor → Cursor
  | 0, c => c
  | fuel + 1, c =>
    if c.column < indent && c.peek = some ' ' then indentTo indent fuel c.next else c

def breaks (indent : Nat) : Nat → Cursor → List Char × Cursor
  | 0, c => ([], c)
  | fuel + 1, c =>
    let c := indentTo indent indent c
    match c.takeBreak? with
    | none => ([], c)
    | some (b, c) =>
      let (more, c) := breaks indent fuel c
      (b :: more, c)

/-- The lines of a block: their text less the final breaks, the last break, the breaks after it, and
the place after them. -/
def lines (fold : Bool) (indent : Nat) :
    Nat → List Char → Cursor → List Char × List Char × List Char × Cursor
  | 0, pending, c => ([], [], pending, c)
  | fuel + 1, pending, c =>
    if c.column ≠ indent || c.peek.isNone then ([], [], pending, c)
    else
      let flush (c : Cursor) : Bool := c.peek ≠ some ' ' && c.peek ≠ some '\t'
      let startsFlush := flush c
      let (line, c) := c.span fun ch => !isBreak ch
      let (lineBreak, c) :=
        match c.takeBreak? with
        | some (b, c) => ([b], c)
        | none => ([], c)
      let (empty, c) := breaks indent fuel c
      let line := pending ++ line
      if c.column = indent && c.peek.isSome then
        let joint :=
          if fold && lineBreak = ['\n'] && startsFlush && flush c then
            if empty.isEmpty then [' '] else []
          else lineBreak
        let (more, last, after, c) := lines fold indent fuel empty c
        (line ++ joint ++ more, last, after, c)
      else (line, lineBreak, empty, c)

/-- The text of a block whose surroundings are indented by `indent`. -/
def scan (fuel : Nat) (fold : Bool) (indent : Nat) (c : Cursor) : Scanned := do
  let (chomping, increment, c) := indicators c.next
  if increment = some 0 || !endsField c.peek then throw .malformed
  let c ← idleLine c
  let (pending, depth, c) :=
    match increment with
    | none =>
      let (pending, deepest, c) := leading fuel 0 c
      (pending, max indent deepest, c)
    | some n =>
      let depth := indent + n - 1
      let (pending, c) := breaks depth fuel c
      (pending, depth, c)
  let (text, last, after, c) := lines fold depth fuel pending c
  let tail :=
    match chomping with
    | .strip => []
    | .clip => last
    | .keep => last ++ after
  return (text ++ tail, c)

end Block

end PerfReview.Yaml
