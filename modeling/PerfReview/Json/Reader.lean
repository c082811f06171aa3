import PerfReview.Json.Basic
import PerfReview.Number.Reader
import PerfReview.Text.Surrogate

/-!
# Reading JSON

Documents are read as the grammar has it, with three liberties: the words `NaN`, `Infinity` and
`-Infinity` are numbers, the last of several fields with one name counts at the place of the first,
and an escaped surrogate without its partner stays alone. Integers are bound by the limit on digits,
and lists and objects by a limit on how deep they stand in one another.
-/

namespace PerfReview.Json

/-- Why a text is no JSON document. -/
inductive Fault where
  | malformed
  | tooLong (digits : Nat)
  /-- A list or an object stands in too many others. -/
  | tooDeep (isList : Bool)
  deriving DecidableEq, Repr

/-- What is said of a list or an object that stands in too many others. -/
def tooDeepMessage (isList : Bool) : String :=
  let container := if isList then "array" else "object"
  s!"maximum recursion depth exceeded while decoding a JSON {container} from a unicode string"

/-- How deep lists and objects may stand in one another. That depends on how deep in calls of its own
the program stands when it reads, but there is room for a report. -/
class Room where
  maxDepth : Nat
  enough : 16 ≤ maxDepth

namespace Reader

/-- A value read from the front of a text, with the rest. -/
abbrev Result (α : Type) := Except Fault (α × List Char)

def isSpace (c : Char) : Bool := c = ' ' || c = '\t' || c = '\n' || c = '\r'

def skipSpace (s : List Char) : List Char := s.dropWhile isSpace

def hexValue? (c : Char) : Option Nat :=
  if '0' ≤ c && c ≤ '9' then some (c.toNat - 48)
  else if 'a' ≤ c && c ≤ 'f' then some (c.toNat - 87)
  else if 'A' ≤ c && c ≤ 'F' then some (c.toNat - 55)
  else none

/-- The number that four hexadecimal digits write. -/
def unit? (a b c d : Char) : Option Nat := do
  let a ← hexValue? a
  let b ← hexValue? b
  let c ← hexValue? c
  let d ← hexValue? d
  return ((a * 16 + b) * 16 + c) * 16 + d

def isHighSurrogate (n : Nat) : Bool := 0xD800 ≤ n && n ≤ 0xDBFF

/-- The character that a high surrogate and a second unit write together. -/
def pairChar? (high low : Nat) : Option Char :=
  if isHighSurrogate high && 0xDC00 ≤ low && low ≤ 0xDFFF then
    some (Char.ofNat (0x10000 + (high - 0xD800) * 0x400 + (low - 0xDC00)))
  else none

def letterEscape? (c : Char) : Option Char :=
  match c with
  | '\x22' => some '\x22'
  | '\\' => some '\\'
  | '/' => some '/'
  | 'b' => some '\x08'
  | 'f' => some '\x0c'
  | 'n' => some '\n'
  | 'r' => some '\r'
  | 't' => some '\t'
  | _ => none

/-- The characters read, a high surrogate that found no partner among them. -/
def settle (pending : Option Nat) (done : List Char) : List Char :=
  (pending.map Text.ofCode).toList ++ done

/-- Reads the rest of a text after its opening mark; `pending` is a high surrogate just read, and
`done` the characters before it, the latest first. -/
def stringBody (pending : Option Nat) (done : List Char) : List Char → Result String
  | [] => .error .malformed
  | '\x22' :: s => .ok (String.ofList (settle pending done).reverse, s)
  | '\\' :: 'u' :: a :: b :: c :: d :: s =>
    match unit? a b c d with
    | none => .error .malformed
    | some n =>
      match pending.bind (pairChar? · n) with
      | some ch => stringBody none (ch :: done) s
      | none =>
        if isHighSurrogate n then stringBody (some n) (settle pending done) s
        else stringBody none (Text.ofCode n :: settle pending done) s
  | '\\' :: c :: s =>
    match letterEscape? c with
    | some e => stringBody none (e :: settle pending done) s
    | none => .error .malformed
  | c :: s =>
    if c.toNat < 0x20 then .error .malformed else stringBody none (c :: settle pending done) s

def isAsciiDigit (c : Char) : Bool := '0' ≤ c && c ≤ '9'

/-- The whole part of a number: a zero, or digits that start with another. -/
def wholePart : List Char → Option (List Char × List Char)
  | '0' :: s => some (['0'], s)
  | c :: s =>
    if isAsciiDigit c then
      let (ds, rest) := s.span isAsciiDigit
      some (c :: ds, rest)
    else none
  | [] => none

/-- The digits after a point, where a point with a digit follows. -/
def fractionPart : List Char → Option (List Char × List Char)
  | '.' :: s =>
    let (ds, rest) := s.span isAsciiDigit
    if ds.isEmpty then none else some (ds, rest)
  | _ => none

/-- The exponent, where a mark with digits follows. -/
def exponentPart : List Char → Option (Int × List Char)
  | c :: s =>
    if c = 'e' || c = 'E' then
      let (negative, s) := Number.takeSign s
      let (ds, rest) := s.span isAsciiDigit
      if ds.isEmpty then none
      else
        let n := Number.ofDigits ((ds.dropWhile (· = '0')).take 10 |>.map (·.toNat - 48))
        some (if negative then -(n : Int) else n, rest)
    else none
  | [] => none

/-- Reads the digits of a number whose sign is known. -/
def numberBody (negative : Bool) (s : List Char) : Result Json :=
  match wholePart s with
  | none => .error .malformed
  | some (whole, s) =>
    let value (ds : List Char) := Number.ofDigits (ds.map (·.toNat - 48))
    match fractionPart s with
    | some (fraction, s) =>
      let (e, s) := (exponentPart s).getD (0, s)
      .ok (.float (.ofDecimal negative (value (whole ++ fraction)) (e - fraction.length)), s)
    | none =>
      match exponentPart s with
      | some (e, s) => .ok (.float (.ofDecimal negative (value whole) e), s)
      | none =>
        if Number.maxDigits < whole.length then .error (.tooLong whole.length)
        else
          let n : Int := value whole
          .ok (.int (if negative then -n else n), s)

def scalar : List Char → Result Json
  | 'n' :: 'u' :: 'l' :: 'l' :: s => .ok (.null, s)
  | 't' :: 'r' :: 'u' :: 'e' :: s => .ok (.bool true, s)
  | 'f' :: 'a' :: 'l' :: 's' :: 'e' :: s => .ok (.bool false, s)
  | 'N' :: 'a' :: 'N' :: s => .ok (.float .nan, s)
  | 'I' :: 'n' :: 'f' :: 'i' :: 'n' :: 'i' :: 't' :: 'y' :: s => .ok (.float (.infinite false), s)
  | '-' :: 'I' :: 'n' :: 'f' :: 'i' :: 'n' :: 'i' :: 't' :: 'y' :: s =>
    .ok (.float (.infinite true), s)
  | '-' :: s => numberBody true s
  | s => numberBody false s

mutual

/-- Reads a value that starts at the front of the text. The fuel bounds the values and fields to
come, and `depth` the containers to be opened in one another. -/
def value : Nat → Nat → List Char → Result Json
  | 0, _, _ => .error .malformed
  | fuel + 1, depth, s =>
    match s, depth with
    | '\x22' :: s, _ => (stringBody none [] s).map fun (t, s) => (.text t, s)
    | '[' :: _, 0 => .error (.tooDeep true)
    | '[' :: s, depth + 1 =>
      match skipSpace s with
      | ']' :: s => .ok (.list [], s)
      | s => items fuel depth [] s
    | '\x7b' :: _, 0 => .error (.tooDeep false)
    | '\x7b' :: s, depth + 1 =>
      match skipSpace s with
      | '\x7d' :: s => .ok (.object [], s)
      | s => fields fuel depth [] s
    | s, _ => scalar s

/-- Reads the items of a list from the start of one of them. -/
def items : Nat → Nat → List Json → List Char → Result Json
  | 0, _, _, _ => .error .malformed
  | fuel + 1, depth, done, s =>
    match value fuel depth s with
    | .error e => .error e
    | .ok (v, s) =>
      match skipSpace s with
      | ',' :: s => items fuel depth (v :: done) (skipSpace s)
      | ']' :: s => .ok (.list (v :: done).reverse, s)
      | _ => .error .malformed

/-- Reads the fields of an object from the start of a name. -/
def fields : Nat → Nat → List (String × Json) → List Char → Result Json
  | 0, _, _, _ => .error .malformed
  | fuel + 1, depth, done, s =>
    match s with
    | '\x22' :: s =>
      match stringBody none [] s with
      | .error e => .error e
      | .ok (name, s) =>
        match skipSpace s with
        | ':' :: s =>
          match value fuel depth (skipSpace s) with
          | .error e => .error e
          | .ok (v, s) =>
            match skipSpace s with
            | ',' :: s => fields fuel depth ((name, v) :: done) (skipSpace s)
            | '\x7d' :: s => .ok (.object (Assoc.ofPairs ((name, v) :: done).reverse), s)
            | _ => .error .malformed
        | _ => .error .malformed
    | _ => .error .malformed

end

end Reader

/-- Reads a document: one value with white space around it. -/
def read [Room] (s : String) : Except Fault Json :=
  let cs := s.toList
  match Reader.value (cs.length + 1) Room.maxDepth (Reader.skipSpace cs) with
  | .error e => .error e
  | .ok (v, rest) => if (Reader.skipSpace rest).isEmpty then .ok v else .error .malformed

end PerfReview.Json
