import PerfReview.Json.Basic
import PerfReview.Moment
import PerfReview.Text.Quoted

/-!
# Document values

The values that settings documents hold: besides those of JSON, byte strings, dates, points in time,
tuples, sets and maps with any keys. `display` is the text of a value in a message or a setting;
inside a container texts stand in quotation marks, and dates and times are spelt out.
-/

namespace PerfReview

inductive Value where
  | null
  | bool (b : Bool)
  | int (n : Int)
  | float (x : Number.Binary64)
  | text (s : String)
  | bytes (bs : List UInt8)
  | day (d : Day)
  | moment (m : Moment)
  | list (items : List Value)
  | tuple (items : List Value)
  | set (items : List Value)
  | map (entries : List (Value × Value))
  /-- A container within itself; the flag says that it is a map. -/
  | again (isMap : Bool)

namespace Value

/-! ## Equality -/

mutual

def equals : Value → Value → Bool
  | .null, .null => true
  | .bool b, .bool b' => b = b'
  | .int n, .int n' => n = n'
  | .float x, .float x' => x = x'
  | .text s, .text s' => s = s'
  | .bytes bs, .bytes bs' => bs = bs'
  | .day d, .day d' => d = d'
  | .moment m, .moment m' => m = m'
  | .list vs, .list vs' => equalItems vs vs'
  | .tuple vs, .tuple vs' => equalItems vs vs'
  | .set vs, .set vs' => equalItems vs vs'
  | .map es, .map es' => equalEntries es es'
  | .again b, .again b' => b = b'
  | _, _ => false

def equalItems : List Value → List Value → Bool
  | [], [] => true
  | v :: vs, v' :: vs' => equals v v' && equalItems vs vs'
  | _, _ => false

def equalEntries : List (Value × Value) → List (Value × Value) → Bool
  | [], [] => true
  | (k, v) :: es, (k', v') :: es' => equals k k' && equals v v' && equalEntries es es'
  | _, _ => false

end

mutual

theorem equals_iff (v w : Value) : equals v w = true ↔ v = w := by
  cases v with
  | list vs | tuple vs | set vs => cases w <;> simp [equals, equalItems_iff vs]
  | map es => cases w <;> simp [equals, equalEntries_iff es]
  | _ => cases w <;> simp [equals]

theorem equalItems_iff (vs ws : List Value) : equalItems vs ws = true ↔ vs = ws := by
  cases vs with
  | nil => cases ws <;> simp [equalItems]
  | cons v vs => cases ws <;> simp [equalItems, equals_iff v, equalItems_iff vs]

theorem equalEntries_iff (es fs : List (Value × Value)) : equalEntries es fs = true ↔ es = fs := by
  cases es with
  | nil => cases fs <;> simp [equalEntries]
  | cons e es =>
    obtain ⟨k, v⟩ := e
    cases fs <;> simp [equalEntries, equals_iff k, equals_iff v, equalEntries_iff es, Prod.ext_iff]

end

instance : DecidableEq Value := fun v w => decidable_of_iff _ (equals_iff v w)

/-! ## How values are shown -/

def commaList (ns : List Nat) : String := String.intercalate ", " (ns.map Number.natText)

def speltDay (d : Day) : String := s!"datetime.date({commaList [d.year, d.month, d.day]})"

/-- A distance from universal time as days and seconds. -/
def speltOffset (seconds : Int) : String :=
  if seconds = 0 then "datetime.timezone.utc"
  else
    let days := seconds / 86400
    let rest := Number.intText (seconds % 86400)
    let inside :=
      if days = 0 then s!"seconds={rest}" else s!"days={Number.intText days}, seconds={rest}"
    s!"datetime.timezone(datetime.timedelta({inside}))"

def speltMoment (m : Moment) : String :=
  let tail :=
    if m.microsecond ≠ 0 then [m.second, m.microsecond]
    else if m.second ≠ 0 then [m.second] else []
  let fields := [m.day.year, m.day.month, m.day.day, m.hour, m.minute] ++ tail
  let offset := (m.offset.map fun o => ", tzinfo=" ++ speltOffset o).getD ""
  s!"datetime.datetime({commaList fields}{offset})"

def quotedByte (mark : Char) (b : UInt8) : List Char :=
  let n := b.toNat
  let c := Char.ofNat n
  if c = mark || c = '\\' then ['\\', c]
  else if c = '\n' then ['\\', 'n']
  else if c = '\r' then ['\\', 'r']
  else if c = '\t' then ['\\', 't']
  else if 0x20 ≤ n && n < 0x7F then [c]
  else '\\' :: 'x' :: Text.hexPadded 2 n

def quotedBytes (bs : List UInt8) : List Char :=
  let mark := Text.quotationMark (bs.map fun b => Char.ofNat b.toNat)
  'b' :: mark :: bs.flatMap (quotedByte mark) ++ [mark]

def constant (b : Bool) : List Char := if b then "True".toList else "False".toList

mutual

def inner : Value → List Char
  | .null => "None".toList
  | .bool b => constant b
  | .int n => (Number.intText n).toList
  | .float x => (Number.Layout.plain.text x).toList
  | .text s => (Text.quoted s).toList
  | .bytes bs => quotedBytes bs
  | .day d => (speltDay d).toList
  | .moment m => (speltMoment m).toList
  | .list items => '[' :: innerItems items ++ [']']
  | .tuple [v] => '(' :: inner v ++ [',', ')']
  | .tuple items => '(' :: innerItems items ++ [')']
  | .set [] => "set()".toList
  | .set items => '\x7b' :: innerItems items ++ ['\x7d']
  | .map entries => '\x7b' :: innerEntries entries ++ ['\x7d']
  | .again false => "[...]".toList
  | .again true => ['\x7b', '.', '.', '.', '\x7d']

def innerItems : List Value → List Char
  | [] => []
  | [v] => inner v
  | v :: vs => inner v ++ ',' :: ' ' :: innerItems vs

def innerEntries : List (Value × Value) → List Char
  | [] => []
  | [(k, v)] => inner k ++ ':' :: ' ' :: inner v
  | (k, v) :: es => inner k ++ ':' :: ' ' :: inner v ++ ',' :: ' ' :: innerEntries es

end

def spelt (v : Value) : String := String.ofList (inner v)

def display : Value → String
  | .text s => s
  | .day d => d.text
  | .moment m => m.text
  | v => spelt v

mutual

/-- The value holds an integer with more digits than may be written. -/
def isUnwritable : Value → Bool
  | .int n => Nat.pow 10 Number.maxDigits ≤ n.natAbs
  | .list items | .tuple items | .set items => anyUnwritable items
  | .map entries => anyUnwritableEntry entries
  | _ => false

def anyUnwritable : List Value → Bool
  | [] => false
  | v :: vs => isUnwritable v || anyUnwritable vs

def anyUnwritableEntry : List (Value × Value) → Bool
  | [] => false
  | (k, v) :: es => isUnwritable k || isUnwritable v || anyUnwritableEntry es

end

/-- Values that stand for something: neither null, false, zero nor empty. -/
def isSubstantial : Value → Bool
  | .null => false
  | .bool b => b
  | .int n => n ≠ 0
  | .float x => !x.isZero
  | .text s => s ≠ ""
  | .bytes bs => !bs.isEmpty
  | .list items | .tuple items | .set items => !items.isEmpty
  | .map entries => !entries.isEmpty
  | .day _ | .moment _ | .again _ => true

end Value

mutual

def Json.toValue : Json → Value
  | .null => .null
  | .bool b => .bool b
  | .int n => .int n
  | .float x => .float x
  | .text s => .text s
  | .list items => .list (Json.toValues items)
  | .object fields => .map (Json.toEntries fields)

def Json.toValues : List Json → List Value
  | [] => []
  | j :: js => j.toValue :: Json.toValues js

def Json.toEntries : List (String × Json) → List (Value × Value)
  | [] => []
  | (k, j) :: fs => (.text k, j.toValue) :: Json.toEntries fs

end

/-- The text of a JSON value in a message. -/
def Json.display (j : Json) : String := j.toValue.display

end PerfReview
