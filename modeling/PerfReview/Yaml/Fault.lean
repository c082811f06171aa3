import PerfReview.Number.Reader
import PerfReview.Text.Quoted
import PerfReview.Value

/-!
# Faults of documents

Why a document has no value. A text that breaks the rules of the format is malformed; the other
faults are values of a well-formed document that do not exist: numbers, truth values and times that
their texts do not name.
-/

namespace PerfReview.Yaml

/-- Why a time does not exist. -/
inductive CalendarFault where
  | year (n : Nat)
  | month
  | day
  | hour
  | minute
  | second
  /-- The distance from universal time is a day or more. -/
  | offset (seconds : Int)
  deriving DecidableEq, Repr

namespace CalendarFault

def stretch (seconds : Int) : String :=
  let days := seconds / 86400
  let rest := seconds % 86400
  let inside := String.intercalate ", " <|
    (if days = 0 then [] else [s!"days={Number.intText days}"]) ++
      if rest = 0 then [] else [s!"seconds={Number.intText rest}"]
  s!"datetime.timedelta({inside})"

def message : CalendarFault → String
  | year n => s!"year {Number.natText n} is out of range"
  | month => "month must be in 1..12"
  | day => "day is out of range for month"
  | hour => "hour must be in 0..23"
  | minute => "minute must be in 0..59"
  | second => "second must be in 0..59"
  | offset seconds =>
    s!"offset must be a timedelta strictly between -timedelta(hours=24) and timedelta(hours=24), not {stretch seconds}."

end CalendarFault

inductive Fault where
  | malformed
  /-- A text that is marked as an integer and is none in its base. -/
  | notInteger (base : Nat) (text : String)
  | tooLong (digits : Nat)
  /-- A text that is marked as a number and is none. -/
  | notReal (text : String)
  /-- Nothing is marked as a number. -/
  | emptyNumber
  /-- A word that is marked as a truth value and is none. -/
  | notTruth (word : String)
  /-- A text that is marked as a time and is none. -/
  | notTime
  | calendar (f : CalendarFault)
  /-- A time is written as a map with a default value. -/
  | timeOfMap
  /-- A number of base sixty has so many parts that one counts more than any floating-point number. -/
  | tooLarge
  /-- Lists and maps stand in too many others, or a default value within itself. -/
  | tooDeep
  /-- An escape beyond the last character. -/
  | noCharacter
  /-- An escape beyond the numbers of a machine word. -/
  | noWord
  deriving DecidableEq, Repr

namespace Fault

def message : Fault → String
  | malformed => "malformed document"
  | notInteger base text =>
    s!"invalid literal for int() with base {Number.natText base}: {Text.quoted text}"
  | tooLong digits => Number.tooLongMessage digits
  | notReal text => s!"could not convert string to float: {Text.quoted text}"
  | emptyNumber => "string index out of range"
  | notTruth word => word
  | notTime => "'NoneType' object has no attribute 'groupdict'"
  | calendar f => f.message
  | timeOfMap => "expected string or bytes-like object, got 'list'"
  | tooLarge => "int too large to convert to float"
  | tooDeep => "maximum recursion depth exceeded"
  | noCharacter => "chr() arg not in range(0x110000)"
  | noWord => "int too large to convert to a character"

end Fault

end PerfReview.Yaml
