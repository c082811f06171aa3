import PerfReview.Number.Layout
import PerfReview.Number.Reader
import PerfReview.Text.Lines

/-!
# Days and points in time

Calendar days and points in time with an optional distance from universal time, and their texts:
the plain text with a blank between day and time, the standard text with a letter T, and the stamp
of file names.
-/

namespace PerfReview

structure Day where
  year : Nat
  month : Nat
  day : Nat
  deriving DecidableEq, Repr

/-- A point in time; `offset` is its distance from universal time in seconds, if known. -/
structure Moment where
  day : Day
  hour : Nat
  minute : Nat
  second : Nat
  microsecond : Nat
  offset : Option Int
  deriving DecidableEq, Repr

def padded (width n : Nat) : String :=
  let ds := Nat.toDigits 10 n
  String.ofList (List.replicate (width - ds.length) '0' ++ ds)

namespace Day

def text (d : Day) : String := s!"{padded 4 d.year}-{padded 2 d.month}-{padded 2 d.day}"

def isLeapYear (year : Nat) : Bool := year % 4 = 0 && (year % 100 ≠ 0 || year % 400 = 0)

def daysIn (year month : Nat) : Nat :=
  if month = 2 then (if isLeapYear year then 29 else 28)
  else if month ∈ [4, 6, 9, 11] then 30
  else 31

/-- The day that lies a number of days after the first of January 1970. Years are counted from March
on, in spans of 400 years. -/
def ofNumber (n : Nat) : Day :=
  let days := n + 719468
  let inSpan := days % 146097
  let yearOfSpan := (inSpan - inSpan / 1460 + inSpan / 36524 - inSpan / 146096) / 365
  let inYear := inSpan - (365 * yearOfSpan + yearOfSpan / 4 - yearOfSpan / 100)
  let month := (5 * inYear + 2) / 153
  let year := yearOfSpan + days / 146097 * 400
  ⟨if month < 10 then year else year + 1, if month < 10 then month + 3 else month - 9,
    inYear - (153 * month + 2) / 5 + 1⟩

/-- The days from the first of January of the year 1 to a day. -/
def number (d : Day) : Nat :=
  let y := d.year - 1
  let months := (List.range (d.month - 1)).foldl (fun n m => n + daysIn d.year (m + 1)) 0
  365 * y + y / 4 - y / 100 + y / 400 + months + (d.day - 1)

end Day

namespace Moment

/-- The microseconds of local time. -/
def microseconds (m : Moment) : Int :=
  ((m.day.number * 24 + m.hour) * 60 + m.minute) * 60000000 + (m.second * 1000000 + m.microsecond)

/-- Two moments are one: both know their distance from universal time and lie at the same point of
it, or neither knows it and they are written alike. -/
def isSame (m n : Moment) : Bool :=
  match m.offset, n.offset with
  | some a, some b => m.microseconds - a * 1000000 = n.microseconds - b * 1000000
  | none, none => m = n
  | _, _ => false

/-- The point in universal time that lies a number of milliseconds after the start of 1970. -/
def ofMilliseconds (n : Nat) : Moment :=
  let seconds := n / 1000
  let inDay := seconds % 86400
  ⟨.ofNumber (seconds / 86400), inDay / 3600, inDay / 60 % 60, inDay % 60, n % 1000 * 1000, some 0⟩

/-- A distance from universal time, with seconds only where it has some. -/
def offsetText (seconds : Int) : String :=
  let sign := if seconds < 0 then "-" else "+"
  let n := seconds.natAbs
  let tail := if n % 60 = 0 then "" else ":" ++ padded 2 (n % 60)
  s!"{sign}{padded 2 (n / 3600)}:{padded 2 (n / 60 % 60)}{tail}"

def clockText (m : Moment) : String :=
  s!"{padded 2 m.hour}:{padded 2 m.minute}:{padded 2 m.second}"

def fractionText (m : Moment) : String :=
  if m.microsecond = 0 then "" else "." ++ padded 6 m.microsecond

def zoneText (m : Moment) : String := (m.offset.map offsetText).getD ""

/-- Day and time with a blank between. -/
def text (m : Moment) : String := s!"{m.day.text} {m.clockText}{m.fractionText}{m.zoneText}"

def iso (m : Moment) : String := s!"{m.day.text}T{m.clockText}{m.fractionText}{m.zoneText}"

def isoSeconds (m : Moment) : String := s!"{m.day.text}T{m.clockText}{m.zoneText}"

def stamp (m : Moment) : String :=
  s!"{Number.natText m.day.year}{padded 2 m.day.month}{padded 2 m.day.day}-{padded 2 m.hour}{padded 2 m.minute}{padded 2 m.second}"

/-- A number of decimal digits. -/
def number? (digits : List Char) : Option Nat :=
  if digits.isEmpty then none else (digits.mapM Text.digitValue?).map Number.ofDigits

/-- The numbers of two digits that stand in a row. -/
def pairs? : List Char → Option (List Nat)
  | [] => some []
  | [_] => none
  | a :: b :: s => do return (← number? [a, b]) :: (← pairs? s)

/-- The numbers of a time of day, with colons between them or in a row. -/
def clock? (s : List Char) : Option (List Nat) :=
  if s.contains ':' then (Text.splitOn ':' s).mapM number? else pairs? s

/-- Hours, minutes and seconds; what is not written is zero. -/
def hoursMinutesSeconds? (s : List Char) : Option (Nat × Nat × Nat) := do
  match ← clock? s with
  | [h] => return (h, 0, 0)
  | [h, m] => return (h, m, 0)
  | [h, m, s] => return (h, m, s)
  | _ => none

def readOffset? (s : List Char) : Option Int :=
  (hoursMinutesSeconds? s).map fun (h, m, s) => (h * 3600 + m * 60 + s : Nat)

/-- The time of day and the distance from universal time. -/
def splitZone? (s : List Char) : Option (List Char × Option Int) :=
  match s.span fun c => c ≠ '+' && c ≠ '-' && c ≠ 'Z' with
  | (time, []) => some (time, none)
  | (time, 'Z' :: _) => some (time, some 0)
  | (time, sign :: zone) =>
    (readOffset? zone).map fun o => (time, some (if sign = '-' then -o else o))

/-- Digits after a point as millionths. -/
def readFraction (digits : List Char) : Nat :=
  Number.ofDigits (((digits ++ List.replicate 6 '0').take 6).filterMap Text.digitValue?)

/-- A day in front, written with hyphens or without, and what follows it. -/
def takeDay? (s : List Char) : Option (Day × List Char) := do
  let year ← number? (s.take 4)
  let (numbers, rest) :=
    if s[4]? = some '-' then ((Text.splitOn '-' (s.take 10)).mapM number?, s.drop 10)
    else ((pairs? ((s.take 8).drop 4)).map (year :: ·), s.drop 8)
  match ← numbers with
  | [y, m, d] => return (⟨y, m, d⟩, rest)
  | _ => none

/-- Reads the standard text: a day, and behind one character the time of day and the distance from
universal time. A day alone stands for its start. -/
def ofIso? (s : String) : Option Moment := do
  let (day, rest) ← takeDay? s.toList
  if rest.isEmpty then return ⟨day, 0, 0, 0, 0, none⟩
  let (time, offset) ← splitZone? (rest.drop 1)
  let (clock, fraction) := time.span fun c => c ≠ '.' && c ≠ ','
  let (h, m, s) ← hoursMinutesSeconds? clock
  return ⟨day, h, m, s, readFraction (fraction.drop 1), offset⟩

end Moment

end PerfReview
