import PerfReview.Text.Lines

/-!
# Kinds of scalars

The tags of a document's nodes, and the tag that a plain text has by its form: truth values, numbers
in several bases and in base sixty, times, nothing, and the two signs for merging and for a default
value. All other texts are plain texts.
-/

namespace PerfReview.Yaml

inductive Tag where
  | null
  | bool
  | int
  | float
  | binary
  | time
  | orderedMap
  | pairs
  | set
  | text
  | list
  | map
  | merge
  | value
  | other (name : String)
  deriving DecidableEq, Repr

namespace Tag

def standard : String := "tag:yaml.org,2002:"

/-- The tags with a meaning, by the ends of their names. -/
def known : List (String × Tag) := [
  ("null", .null), ("bool", .bool), ("int", .int), ("float", .float), ("binary", .binary),
  ("timestamp", .time), ("omap", .orderedMap), ("pairs", .pairs), ("set", .set), ("str", .text),
  ("seq", .list), ("map", .map), ("merge", .merge), ("value", .value)]

def ofName (name : String) : Tag :=
  ((known.find? fun (n, _) => standard ++ n = name).map (·.2)).getD (.other name)

/-- Tags whose values are read from texts. -/
def isScalar : Tag → Bool
  | null | bool | int | float | binary | time | text => true
  | _ => false

end Tag

namespace Form

def isDigit (c : Char) : Bool := '0' ≤ c && c ≤ '9'

def isHex (c : Char) : Bool := isDigit c || ('a' ≤ c && c ≤ 'f') || ('A' ≤ c && c ≤ 'F')

/-- Digits of a kind with underscores among them, at least one character. -/
def isRun (digit : Char → Bool) (s : List Char) : Bool :=
  !s.isEmpty && s.all fun c => digit c || c = '_'

def unsigned : List Char → List Char
  | '-' :: s | '+' :: s => s
  | s => s

/-- A digit and then digits with underscores among them. -/
def isNumber (s : List Char) : Bool := s.head?.any isDigit && isRun isDigit s

/-- One digit, or two of at most 59. -/
def isSixtieth : List Char → Bool
  | [c] => isDigit c
  | [c, d] => '0' ≤ c && c ≤ '5' && isDigit d
  | _ => false

/-- Parts of base sixty after a leading number. -/
def isSexagesimal (s : List Char) : Bool :=
  match Text.splitOn ':' s with
  | first :: p :: ps => isNumber first && (p :: ps).all isSixtieth
  | _ => false

def isInt (s : List Char) : Bool :=
  let s := unsigned s
  match s with
  | '0' :: 'b' :: ds => isRun (fun c => c = '0' || c = '1') ds
  | '0' :: 'x' :: ds => isRun isHex ds
  | ['0'] => true
  | '0' :: ds => isRun (fun c => '0' ≤ c && c ≤ '7') ds
  | _ => isNumber s || isSexagesimal s

/-- Nothing, or a power of ten with its sign. -/
def isExponent : List Char → Bool
  | [] => true
  | e :: sign :: ds =>
    (e = 'e' || e = 'E') && (sign = '-' || sign = '+') && !ds.isEmpty && ds.all isDigit
  | _ => false

def isFraction (s : List Char) : Bool := isExponent (s.dropWhile fun c => isDigit c || c = '_')

def isFloat (s : List Char) : Bool :=
  match s.span (· ≠ '.') with
  | (_, []) => false
  | (before, _ :: after) =>
    let whole := unsigned before
    (isNumber whole && isFraction after) ||
      (before.isEmpty && after.head?.any isDigit && isFraction after) ||
      (isSexagesimal whole && after.all fun c => isDigit c || c = '_') ||
      (whole.isEmpty && String.ofList after ∈ ["inf", "Inf", "INF"]) ||
      (before.isEmpty && String.ofList after ∈ ["nan", "NaN", "NAN"])

/-- The parts of a time as they are written. -/
structure TimeText where
  year : List Char
  month : List Char
  day : List Char
  /-- Hour, minute, second and the digits after the point. -/
  clock : Option (List Char × List Char × List Char × List Char) := none
  /-- The sign, hours and minutes from universal time; without a sign, none. -/
  zone : Option (Option (Char × List Char × List Char)) := none

def twoDigits? : List Char → Option (List Char × List Char)
  | c :: d :: s =>
    if isDigit c && isDigit d then some ([c, d], s)
    else if isDigit c then some ([c], d :: s) else none
  | [c] => if isDigit c then some ([c], []) else none
  | [] => none

def digits? (n : Nat) (s : List Char) : Option (List Char × List Char) :=
  let ds := s.take n
  if ds.length = n && ds.all isDigit then some (ds, s.drop n) else none

def after? (c : Char) : List Char → Option (List Char)
  | d :: s => if d = c then some s else none
  | [] => none

def isGap (c : Char) : Bool := c = ' ' || c = '\t'

/-- The distance from universal time that a whole text is. -/
def zone? (s : List Char) : Option (Option (Char × List Char × List Char)) :=
  match s with
  | ['Z'] => some none
  | sign :: s =>
    if sign = '-' || sign = '+' then do
      let (h, s) ← twoDigits? s
      match s with
      | [] => some (some (sign, h, []))
      | _ =>
        let (m, s) ← digits? 2 (← after? ':' s)
        if s.isEmpty then some (some (sign, h, m)) else none
    else none
  | [] => none

/-- The time of day and the zone that a whole text is. -/
def clock? (t : TimeText) (s : List Char) : Option TimeText := do
  let (h, s) ← twoDigits? s
  let (m, s) ← digits? 2 (← after? ':' s)
  let (sec, s) ← digits? 2 (← after? ':' s)
  let (fraction, s) :=
    match s with
    | '.' :: s => s.span isDigit
    | s => ([], s)
  let t := { t with clock := some (h, m, sec, fraction) }
  if s.isEmpty then some t
  else
    let z ← zone? (s.dropWhile isGap)
    return { t with zone := some z }

/-- The parts of a day, with a time or without. -/
def time? (s : List Char) : Option TimeText := do
  let (y, s) ← digits? 4 s
  let (m, s) ← twoDigits? (← after? '-' s)
  let (d, s) ← twoDigits? (← after? '-' s)
  let t : TimeText := { year := y, month := m, day := d }
  match s with
  | [] => some t
  | c :: s =>
    if c = 'T' || c = 't' then clock? t s
    else if isGap c then clock? t (s.dropWhile isGap)
    else none

/-- A time, or a day in full. -/
def isTime (s : List Char) : Bool :=
  match time? s with
  | some t => t.clock.isSome || (t.month.length = 2 && t.day.length = 2)
  | none => false

def truthWords : List String := [
  "yes", "Yes", "YES", "no", "No", "NO", "true", "True", "TRUE", "false", "False", "FALSE", "on",
  "On", "ON", "off", "Off", "OFF"]

def nullWords : List String := ["~", "null", "Null", "NULL"]

/-- The tag of a text without a line feed at its end. -/
def tagOf (s : List Char) : Tag :=
  let word := String.ofList s
  if word ∈ truthWords then .bool
  else if isFloat s then .float
  else if isInt s then .int
  else if word = "<<" then .merge
  else if word ∈ nullWords then .null
  else if isTime s then .time
  else if word = "=" then .value
  else if word ∈ ["!", "&", "*"] then .other (Tag.standard ++ "yaml")
  else .text

end Form

namespace Tag

/-- The tag that a plain text has by its form; a line feed at its end does not matter. -/
def ofPlain (s : String) : Tag :=
  if s = "" then .null
  else
    match s.toList.reverse with
    | '\n' :: r => Form.tagOf r.reverse
    | _ => Form.tagOf s.toList

end Tag

end PerfReview.Yaml
