import PerfReview.Text.Utf8
import PerfReview.Yaml.Scalar

/-!
# Tokens

The signs and texts of a document. Indentation shows as tokens that open and close collections. A
text that turns out to be a key, because a colon follows on its line, gets its key token afterwards;
until then its place is kept, one for each depth of brackets. A scan that fails keeps the tokens
before the fault. A text that may be a key still is not given out before that is settled, so the fault
hides it and what follows it.
-/

namespace PerfReview.Yaml

/-- The name of a tag: a handle with what follows it, or a whole name. -/
structure TagName where
  handle : Option String
  suffix : String
  deriving DecidableEq, Repr

inductive Directive where
  | version (major : Nat)
  | tag (handle replacement : String)
  | unknown
  deriving DecidableEq, Repr

inductive Token where
  | directive (d : Directive)
  | documentStart
  | documentEnd
  | listStart
  | mapStart
  | blockEnd
  | flowListStart
  | flowListEnd
  | flowMapStart
  | flowMapEnd
  | entry
  | flowEntry
  | key
  | value
  | alias (name : String)
  | anchor (name : String)
  | tag (name : TagName)
  | text (isPlain : Bool) (s : String)
  deriving DecidableEq, Repr

namespace Token

def isNameChar (c : Char) : Bool :=
  ('0' ≤ c && c ≤ '9') || ('A' ≤ c && c ≤ 'Z') || ('a' ≤ c && c ≤ 'z') || c = '-' || c = '_'

def isTagChar (c : Char) : Bool := isNameChar c || ";/?:@&=+$,.!~*\x27()[]".toList.contains c

def endsAnchor (c : Option Char) : Bool :=
  endsWord c || c.any fun ch => "?:,]\x7d%@\x60".toList.contains ch

/-- The name after the sign of an anchor or alias. -/
def scanName (c : Cursor) : Except Fault (String × Cursor) :=
  let (name, c) := c.next.span isNameChar
  if name.isEmpty || !endsAnchor c.peek then .error .malformed else .ok (String.ofList name, c)

def scanHandle (c : Cursor) : Except Fault (String × Cursor) :=
  if c.peek ≠ some '!' then .error .malformed
  else if c.next.peek = some ' ' then .ok ("!", c.next)
  else
    let (name, c) := c.next.span isNameChar
    if c.peek = some '!' then .ok (String.ofList ('!' :: name ++ ['!']), c.next)
    else .error .malformed

def scanBytes : Nat → Cursor → Except Fault (List UInt8 × Cursor)
  | 0, _ => .error .malformed
  | fuel + 1, c =>
    if c.peek = some '%' then
      match Quoted.hexValue? 2 c.next.rest with
      | none => .error .malformed
      | some n => (scanBytes fuel (c.skip 3)).map fun (bs, c) => (UInt8.ofNat n :: bs, c)
    else .ok ([], c)

def scanTagText : Nat → Cursor → Scanned
  | 0, _ => .error .malformed
  | fuel + 1, c =>
    match c.peek with
    | none => .ok ([], c)
    | some ch =>
      if ch = '%' then do
        let (bytes, c) ← scanBytes fuel c
        match Text.decodeStrict bytes with
        | .error _ => throw .malformed
        | .ok s =>
          let (more, c) ← scanTagText fuel c
          return (s ++ more, c)
      else if isTagChar ch then (scanTagText fuel c.next).map fun (s, c) => (ch :: s, c)
      else .ok ([], c)

/-- The text of a tag, which is not empty. -/
def scanTagPart (fuel : Nat) (c : Cursor) : Except Fault (String × Cursor) :=
  match scanTagText fuel c with
  | .error f => .error f
  | .ok (s, c) => if s.isEmpty then .error .malformed else .ok (String.ofList s, c)

/-- A handle stands in the word in front. -/
def hasHandle (s : List Char) : Bool :=
  (s.takeWhile fun ch => !(endsField (some ch))).contains '!'

def scanTagName (fuel : Nat) (c : Cursor) : Except Fault (TagName × Cursor) := do
  let (name, c) ←
    match c.next.peek with
    | some '<' =>
      let (s, c) ← scanTagPart fuel (c.skip 2)
      if c.peek = some '>' then pure (⟨none, s⟩, c.next) else throw .malformed
    | ch =>
      if endsWord ch then pure ((⟨none, "!"⟩ : TagName), c.next)
      else if hasHandle c.next.rest then
        let (h, c) ← scanHandle c
        let (s, c) ← scanTagPart fuel c
        pure (⟨some h, s⟩, c)
      else
        let (s, c) ← scanTagPart fuel c.next
        pure (⟨some "!", s⟩, c)
  if endsField c.peek then return (name, c) else throw .malformed

def scanNumber (c : Cursor) : Except Fault (Nat × Cursor) :=
  let (ds, c) := c.span fun ch => '0' ≤ ch && ch ≤ '9'
  if ds.isEmpty then .error .malformed
  else
    match Number.readDigits ds with
    | .ok n => .ok (n, c)
    | .error (.tooLong n) => .error (.tooLong n)
    | .error .malformed => .error .malformed

def scanDirective (fuel : Nat) (c : Cursor) : Except Fault (Directive × Cursor) := do
  let (name, c) := c.next.span isNameChar
  if name.isEmpty || !endsField c.peek then throw .malformed
  let (d, c) ←
    match String.ofList name with
    | "YAML" =>
      let (major, c) ← scanNumber c.skipSpaces
      if c.peek ≠ some '.' then throw .malformed
      let (_, c) ← scanNumber c.next
      if !endsField c.peek then throw .malformed
      pure (.version major, c)
    | "TAG" =>
      let (handle, c) ← scanHandle c.skipSpaces
      if c.peek ≠ some ' ' then throw .malformed
      let (replacement, c) ← scanTagPart fuel c.skipSpaces
      if !endsField c.peek then throw .malformed
      pure (.tag handle replacement, c)
    | _ => pure (.unknown, (c.span fun ch => !isBreak ch).2)
  let c ← Block.idleLine c
  return (d, c)

end Token

/-- A text that may turn out to be a key: the place of its token, where it starts, and whether it
has to be a key. -/
structure KeyPlace where
  token : Nat
  index : Nat
  line : Nat
  column : Nat
  required : Bool
  deriving DecidableEq, Repr

structure Scanner where
  cursor : Cursor
  /-- The tokens so far, the last one first. -/
  tokens : List Token := []
  /-- The number of tokens so far. -/
  count : Nat := 0
  /-- The depth of brackets. -/
  flow : Nat := 0
  mayStartKey : Bool := true
  /-- Where a key may have started, by depth of brackets. -/
  keys : List (Nat × KeyPlace) := []
  /-- The indentation of the innermost collection, and those around it. -/
  indent : Int := -1
  indents : List Int := []

namespace Scanner

def push (t : Token) (s : Scanner) : Scanner :=
  { s with tokens := t :: s.tokens, count := s.count + 1 }

/-- Puts a token behind the first `n` of those so far. -/
def insert (n : Nat) (t : Token) (s : Scanner) : Scanner :=
  { s with tokens := s.tokens.insertIdx (s.count - n) t, count := s.count + 1 }

def moveTo (c : Cursor) (s : Scanner) : Scanner := { s with cursor := c }

/-- Closes the collections that are indented deeper than a column. -/
def closeTo (column : Int) (s : Scanner) : Scanner :=
  if s.flow ≠ 0 then s
  else
    let closed := (s.indent :: s.indents).takeWhile (column < ·)
    let left := (s.indent :: s.indents).dropWhile (column < ·)
    { s with
      tokens := (closed.map fun _ => Token.blockEnd) ++ s.tokens
      count := s.count + closed.length
      indent := left.headD (-1)
      indents := left.tail }

def isDeeper (column : Nat) (s : Scanner) : Bool := s.indent < column

def indentTo (column : Nat) (s : Scanner) : Scanner :=
  { s with indent := column, indents := s.indent :: s.indents }

/-- Forgets the key that may have started at the present depth. -/
def dropKey (s : Scanner) : Except Fault Scanner :=
  if s.keys.any fun (level, k) => level = s.flow && k.required then .error .malformed
  else .ok { s with keys := s.keys.filter (·.1 ≠ s.flow) }

/-- Notes that a key may start here. -/
def saveKey (s : Scanner) : Except Fault Scanner :=
  if s.mayStartKey then do
    let required := s.flow = 0 && s.indent = s.cursor.column
    let s ← s.dropKey
    let place : KeyPlace :=
      ⟨s.count, s.cursor.index, s.cursor.line, s.cursor.column, required⟩
    return { s with keys := (s.flow, place) :: s.keys }
  else .ok s

/-- A key is on one line and its start not far behind. -/
def isStale (s : Scanner) (k : KeyPlace) : Bool :=
  k.line ≠ s.cursor.line || 1024 < s.cursor.index - k.index

def dropStaleKeys (s : Scanner) : Except Fault Scanner :=
  if s.keys.any fun (_, k) => s.isStale k && k.required then .error .malformed
  else .ok { s with keys := s.keys.filter fun (_, k) => !s.isStale k }

/-- Skips blanks, comments and breaks; after a break a key may start. -/
def skipIdle : Nat → Scanner → Scanner
  | 0, s => s
  | fuel + 1, s =>
    let c := s.cursor.skipSpaces.skipComment
    match c.takeBreak? with
    | some (_, c) =>
      skipIdle fuel { s with cursor := c, mayStartKey := s.mayStartKey || s.flow = 0 }
    | none => s.moveTo c

/-- Leaves all collections, as before a document or at the end. -/
def leave (s : Scanner) : Except Fault Scanner :=
  ((s.closeTo (-1)).dropKey).map fun s => { s with mayStartKey := false }

def documentSign (t : Token) (s : Scanner) : Except Fault Scanner :=
  s.leave.map fun s => (s.moveTo (s.cursor.skip 3)).push t

def flowStart (t : Token) (s : Scanner) : Except Fault Scanner :=
  s.saveKey.map fun s =>
    { s.moveTo s.cursor.next with flow := s.flow + 1, mayStartKey := true }.push t

def flowEnd (t : Token) (s : Scanner) : Except Fault Scanner := do
  let s ← s.dropKey
  if s.flow = 0 then throw .malformed
  return { s.moveTo s.cursor.next with flow := s.flow - 1, mayStartKey := false }.push t

def flowEntry (s : Scanner) : Except Fault Scanner :=
  (dropKey { s with mayStartKey := true }).map fun s => (s.moveTo s.cursor.next).push .flowEntry

/-- Opens a collection for a sign of the block notation. -/
def openFor (t : Token) (s : Scanner) : Except Fault Scanner :=
  if s.flow ≠ 0 then .ok s
  else if !s.mayStartKey then .error .malformed
  else if s.isDeeper s.cursor.column then .ok ((s.indentTo s.cursor.column).push t)
  else .ok s

def entry (s : Scanner) : Except Fault Scanner := do
  let s ← s.openFor .listStart
  let s ← dropKey { s with mayStartKey := true }
  return (s.moveTo s.cursor.next).push .entry

def key (s : Scanner) : Except Fault Scanner := do
  let s ← s.openFor .mapStart
  let s ← dropKey { s with mayStartKey := s.flow = 0 }
  return (s.moveTo s.cursor.next).push .key

def value (s : Scanner) : Except Fault Scanner := do
  let s ←
    match s.keys.lookup s.flow with
    | some k =>
      let s := { s with keys := s.keys.filter (·.1 ≠ s.flow) }.insert k.token .key
      let s :=
        if s.flow = 0 && s.isDeeper k.column then (s.indentTo k.column).insert k.token .mapStart
        else s
      pure { s with mayStartKey := false }
    | none =>
      let s ← s.openFor .mapStart
      dropKey { s with mayStartKey := s.flow = 0 }
  return (s.moveTo s.cursor.next).push .value

def node (read : Cursor → Except Fault (Token × Cursor)) (s : Scanner) : Except Fault Scanner := do
  let s ← s.saveKey
  let (t, c) ← read s.cursor
  return { s.moveTo c with mayStartKey := false }.push t

def block (fuel : Nat) (fold : Bool) (s : Scanner) : Except Fault Scanner := do
  let s ← dropKey { s with mayStartKey := true }
  let (text, c) ← Block.scan fuel fold (max 1 (s.indent + 1).toNat) s.cursor
  return (s.moveTo c).push (.text false (String.ofList text))

def plain (fuel : Nat) (s : Scanner) : Except Fault Scanner := do
  let s ← s.saveKey
  let (text, c, mayStartKey) := Plain.scan fuel (s.flow ≠ 0) (s.indent + 1).toNat s.cursor
  return { s.moveTo c with mayStartKey }.push (.text true (String.ofList text))

/-- A plain text may start with `ch` before `after`. -/
def startsPlain (inFlow : Bool) (ch : Char) (after : Option Char) : Bool :=
  !(endsWord (some ch) || "-?:,[]\x7b\x7d#&*!|>\x27\x22%@\x60".toList.contains ch) ||
    (!endsWord after && (ch = '-' || (!inFlow && (ch = '?' || ch = ':'))))

def token (fuel : Nat) (ch : Char) (s : Scanner) : Except Fault Scanner :=
  let c := s.cursor
  let inFlow := s.flow ≠ 0
  let separates := c.column = 0 && c.isSeparator
  let standsAlone := endsWord c.next.peek
  if ch = '%' && c.column = 0 then do
    let s ← s.leave
    let (d, c) ← Token.scanDirective fuel c
    return (s.moveTo c).push (.directive d)
  else if ch = '-' && separates then s.documentSign .documentStart
  else if ch = '.' && separates then s.documentSign .documentEnd
  else if ch = '[' then s.flowStart .flowListStart
  else if ch = '\x7b' then s.flowStart .flowMapStart
  else if ch = ']' then s.flowEnd .flowListEnd
  else if ch = '\x7d' then s.flowEnd .flowMapEnd
  else if ch = ',' then s.flowEntry
  else if ch = '-' && standsAlone then s.entry
  else if ch = '?' && (inFlow || standsAlone) then s.key
  else if ch = ':' && (inFlow || standsAlone) then s.value
  else if ch = '*' then s.node fun c => (Token.scanName c).map fun (n, c) => (.alias n, c)
  else if ch = '&' then s.node fun c => (Token.scanName c).map fun (n, c) => (.anchor n, c)
  else if ch = '!' then s.node fun c => (Token.scanTagName fuel c).map fun (n, c) => (.tag n, c)
  else if ch = '|' && !inFlow then s.block fuel false
  else if ch = '>' && !inFlow then s.block fuel true
  else if ch = '\x27' || ch = '\x22' then
    s.node fun c => (Quoted.scan fuel (ch = '\x22') c).map fun (t, c) => (.text false (String.ofList t), c)
  else if startsPlain inFlow ch c.next.peek then s.plain fuel
  else .error .malformed

/-- The tokens that are given out before a fault behind them: those before the first text that may
be a key still. -/
def given (s : Scanner) : List Token :=
  let waiting := (s.keys.filter fun (_, k) => !s.isStale k).map fun (_, k) => k.token
  s.tokens.reverse.take (waiting.foldl min s.count)

/-- Reads the next token; there is none at the end of the text. -/
def step (fuel : Nat) (s : Scanner) : Except Fault (Scanner × Bool) := do
  let s ← (s.skipIdle fuel).dropStaleKeys
  let s := s.closeTo s.cursor.column
  match s.cursor.peek with
  | none => return (← s.leave, false)
  | some ch => return (← s.token fuel ch, true)

/-- Reads the tokens to come; the fault, if there is one, ends them. The fuel is longer than what is
left of the text. -/
def run : Nat → Scanner → List Token × Option Fault
  | 0, s => (s.given, some .malformed)
  | fuel + 1, s =>
    match s.step (fuel + 1) with
    | .error f => (s.given, some f)
    | .ok (s, false) => (s.tokens.reverse, none)
    | .ok (s, true) => run fuel s

end Scanner

namespace Token

def isAllowed (c : Char) : Bool :=
  let n := c.toNat
  c = '\t' || c = '\n' || c = '\r' || (0x20 ≤ n && n ≤ 0x7E) || n = 0x85 ||
    (0xA0 ≤ n && n ≤ 0xD7FF) || (0xE000 ≤ n && n ≤ 0xFFFD) || 0x10000 ≤ n

/-- The tokens of a document, up to a fault. -/
def ofText (s : String) : List Token × Option Fault :=
  let cs := s.toList
  if cs.all isAllowed then
    let c : Cursor := { rest := cs }
    let c := if c.peek = some '\uFEFF' then c.next else c
    Scanner.run (cs.length + 1) { cursor := c }
  else ([], some .malformed)

end Token

end PerfReview.Yaml
