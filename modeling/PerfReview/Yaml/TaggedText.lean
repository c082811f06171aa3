import PerfReview.Number.Arithmetic
import PerfReview.Text.LetterCase
import PerfReview.Yaml.Base64
import PerfReview.Yaml.Scalar
import PerfReview.Yaml.Tag

/-!
# Tagged texts

The values of the texts of a document, which are read as their tags say: numbers in several bases and
in base sixty, truth values, bytes, days and points in time. A tag without a meaning for texts has no
values.
-/

namespace PerfReview.Yaml.Scalar


/-- The value of a digit in some base up to sixteen. -/
def digitOf? (c : Char) : Option Nat := (Quoted.hexDigit? c).or (Text.digitValue? c)

/-- A text without the letter that announces its base. -/
def dropBase (letter : Char) : List Char → List Char
  | '0' :: c :: s => if Number.lowerLatin c = letter then s else '0' :: c :: s
  | s => s

/-- Reads an integer in a base announced by a letter. -/
def integerIn (base : Nat) (letter : Char) (s : List Char) : Except Fault Int :=
  let (negative, ds) := Number.takeSign (Text.withoutMargin s)
  let ds := dropBase letter ds
  match ds.mapM digitOf? with
  | some vs =>
    if vs.isEmpty || vs.any (base ≤ ·) then .error (.notInteger base (String.ofList s))
    else
      let n : Nat := vs.foldl (fun n d => n * base + d) 0
      .ok (if negative then -(n : Int) else n)
  | none => .error (.notInteger base (String.ofList s))

def decimal (s : List Char) : Except Fault Int :=
  match Number.readInt (String.ofList s) with
  | .ok n => .ok n
  | .error .malformed => .error (.notInteger 10 (String.ofList s))
  | .error (.tooLong n) => .error (.tooLong n)

/-- Parts of base sixty, the greatest first. -/
def sexagesimal (parts : List Int) : Int := parts.foldl (fun n d => n * 60 + d) 0

/-- The integer of a text without underscores and sign. -/
def magnitude (s : List Char) : Except Fault Int :=
  match s with
  | [] => .error .emptyNumber
  | ['0'] => .ok 0
  | '0' :: 'b' :: ds => integerIn 2 'b' ds
  | '0' :: 'x' :: ds => integerIn 16 'x' ds
  | '0' :: _ => integerIn 8 'o' s
  | _ =>
    if s.contains ':' then ((Text.splitOn ':' s).mapM decimal).map sexagesimal else decimal s

/-- Takes the sign of a number, which is not empty. -/
def signed (s : List Char) : Except Fault (Bool × List Char) :=
  if s.isEmpty then .error .emptyNumber else .ok (Number.takeSign s)

def integer (s : String) : Except Fault Int := do
  let (negative, ds) ← signed (s.toList.filter (· ≠ '_'))
  let n ← magnitude ds
  return if negative then -n else n

def realPart (s : List Char) : Except Fault Number.Binary64 :=
  match Number.readFloat? (String.ofList s) with
  | some x => .ok x
  | none => .error (.notReal (String.ofList s))

/-- Adds a part of base sixty to the sum of those after it; the second component is what the part
counts. -/
def addPart (sum : Number.Binary64 × Nat) (part : Number.Binary64) :
    Except Fault (Number.Binary64 × Nat) :=
  match Number.Binary64.ofInt? sum.2 with
  | some unit => .ok (sum.1.add (part.times unit), sum.2 * 60)
  | none => .error .tooLarge

/-- Parts of base sixty added up from the least. -/
def sexagesimalReal (parts : List Number.Binary64) : Except Fault Number.Binary64 :=
  (parts.reverse.foldlM addPart (.zero, 1)).map (·.1)

def real (s : String) : Except Fault Number.Binary64 := do
  let (negative, ds) ← signed (Text.small (String.ofList (s.toList.filter (· ≠ '_')))).toList
  let x ←
    match String.ofList ds with
    | ".inf" => pure (.infinite false)
    | ".nan" => pure .nan
    | _ =>
      if ds.contains ':' then (Text.splitOn ':' ds).mapM realPart >>= sexagesimalReal
      else realPart ds
  return if negative then x.negate else x

def truth (s : String) : Except Fault Bool :=
  let word := Text.small s
  if word ∈ ["yes", "true", "on"] then .ok true
  else if word ∈ ["no", "false", "off"] then .ok false
  else .error (.notTruth word)

def bytes (s : String) : Except Fault (List UInt8) :=
  if s.toList.all (·.toNat < 128) then
    match Base64.read? s.toList with
    | some bs => .ok bs
    | none => .error .malformed
  else .error .malformed

def number (ds : List Char) : Nat := Number.ofDigits (ds.map fun c => c.toNat - 48)

def day (year month day : Nat) : Except Fault Day :=
  if year = 0 then .error (.calendar (.year year))
  else if month = 0 || 12 < month then .error (.calendar .month)
  else if day = 0 || Day.daysIn year month < day then .error (.calendar .day)
  else .ok ⟨year, month, day⟩

/-- A distance from universal time of less than a day. -/
def offset (zone : Option (Char × List Char × List Char)) : Except Fault Int :=
  match zone with
  | none => .ok 0
  | some (sign, h, m) =>
    let n : Int := (number h * 60 + number m) * 60
    let n := if sign = '-' then -n else n
    if 86400 ≤ n.natAbs then .error (.calendar (.offset n)) else .ok n

/-- The first six digits of a fraction as millionths. -/
def millionths (ds : List Char) : Nat := number ((ds ++ List.replicate 6 '0').take 6)

def time (s : String) : Except Fault Value := do
  let cs := s.toList
  let found :=
    match Form.time? cs with
    | some t => some t
    | none => match cs.reverse with | '\n' :: r => Form.time? r.reverse | _ => none
  let some t := found | throw .notTime
  match t.clock with
  | none => return .day (← day (number t.year) (number t.month) (number t.day))
  | some (h, m, sec, fraction) =>
    let off ← t.zone.mapM offset
    let d ← day (number t.year) (number t.month) (number t.day)
    if 23 < number h then throw (.calendar .hour)
    if 59 < number m then throw (.calendar .minute)
    if 59 < number sec then throw (.calendar .second)
    return .moment ⟨d, number h, number m, number sec, millionths fraction, off⟩

def value (tag : Tag) (s : String) : Except Fault Value :=
  match tag with
  | .null => .ok .null
  | .bool => (truth s).map .bool
  | .int => (integer s).map .int
  | .float => (real s).map .float
  | .binary => (bytes s).map .bytes
  | .time => time s
  | .text => .ok (.text s)
  | _ => .error .malformed

end PerfReview.Yaml.Scalar
