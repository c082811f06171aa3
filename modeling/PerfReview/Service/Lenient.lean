import PerfReview.Json.Basic
import PerfReview.Number.Reader

/-!
# Lenient numbers

A client may write a number in the form of another value of the same meaning: an integer as a
floating-point number without a fraction, as a text or as a truth value, and likewise a
floating-point number.
-/

namespace PerfReview.Service

def withoutZeroFraction (s : List Char) : List Char :=
  match s.span (· ≠ '.') with
  | (whole, _ :: c :: fraction) => if (c :: fraction).all (· = '0') then whole else s
  | _ => s

def withoutUnderscores : List Char → Option (List Char)
  | [] => some []
  | ['_'] => none
  | '_' :: '_' :: _ => none
  | '_' :: c :: s => (withoutUnderscores s).map (c :: ·)
  | c :: s => (withoutUnderscores s).map (c :: ·)

/-- The number behind zeros and underscores; a zero in front of a point stays, and so does the last
character of all. `before` is the character in front. -/
def behindZeros (before : Char) : List Char → Option (List Char)
  | [] => some [before]
  | c :: s =>
    if c = '0' || c = '_' then behindZeros c s
    else if ('1' ≤ c && c ≤ '9') || c = '-' then some (c :: s)
    else if c = '.' then some (before :: c :: s)
    else none

/-- The digits of a number without the zeros and underscores in front. -/
def withoutLeadingZeros : List Char → Option (List Char)
  | '0' :: s => behindZeros '0' s
  | '-' :: '_' :: _ => none
  | c :: s => if ('1' ≤ c && c ≤ '9') || c = '-' then some (c :: s) else none
  | [] => none

/-- The integer that decimal digits with a sign write, up to the limit on digits. -/
def plainInt? (s : List Char) : Option Int :=
  let (negative, digits) := Number.takeSign s
  if digits.isEmpty || !digits.all Char.isDigit || Number.maxDigits < digits.length then none
  else
    let n : Int := Number.ofDigits (digits.map (·.toNat - 48))
    some (if negative then -n else n)

/-- The integer in a text that is not written plainly. -/
def looseInt? (s : List Char) : Option Int := do
  let s ←
    match s with
    | '+' :: '-' :: _ => none
    | '+' :: s => some s
    | s => some s
  let s := withoutZeroFraction (← withoutLeadingZeros s)
  if s.head? = some '_' then none else plainInt? (← withoutUnderscores s)

def textInt? (s : String) : Option Int :=
  let s := Text.withoutMargin s.toList
  (plainInt? s).or (looseInt? s)

/-- The floating-point number that a text of ASCII without white space and underscores writes. -/
def plainReal? (s : List Char) : Option Number.Binary64 :=
  if s.any fun c => c = '_' || 0x7F ≤ c.toNat || Text.isMargin c then none
  else Number.readFloat? (String.ofList s)

def textReal? (s : String) : Option Number.Binary64 :=
  let loose :=
    if s.toList.head? = some '_' then none
    else (withoutUnderscores s.toList).bind plainReal?
  (plainReal? (Text.withoutMargin s.toList)).or loose

/-- The integer that a floating-point number is, within the words of 64 bits. -/
def wholeInt? (x : Number.Binary64) : Option Int :=
  x.toInt?.filter fun n => n.natAbs < 0x8000000000000000

def int? : Json → Option Int
  | .int n => some n
  | .bool b => some (if b then 1 else 0)
  | .float x => wholeInt? x
  | .text s => textInt? s
  | _ => none

def real? : Json → Option Number.Binary64
  | .int n => Number.Binary64.ofInt? n
  | .bool b => Number.Binary64.ofInt? (if b then 1 else 0)
  | .float x => some x
  | .text s => textReal? s
  | _ => none

end PerfReview.Service
