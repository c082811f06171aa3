import PerfReview.Number.Binary64
import PerfReview.Text.Blank
import PerfReview.Text.Digit

/-!
# Numbers from text

Integers and floating-point numbers read from a text with an optional margin and a sign.
Digits of every script count, and single underscores may stand between digits. An integer of more
than `maxDigits` digits is refused.
-/

namespace PerfReview.Number

/-- The most digits of an integer that is read or written in decimal. -/
def maxDigits : Nat := 4300

/-- Why a text is no integer. -/
inductive IntFault where
  | malformed
  | tooLong (digits : Nat)
  deriving DecidableEq, Repr

/-- What is said of an integer with too many digits to be read. -/
def tooLongMessage (digits : Nat) : String :=
  s!"Exceeds the limit ({maxDigits} digits) for integer string conversion: value has {digits} digits; use sys.set_int_max_str_digits() to increase the limit"

/-- What is said of an integer with too many digits to be written. -/
def tooLongToWriteMessage : String :=
  s!"Exceeds the limit ({maxDigits} digits) for integer string conversion; use sys.set_int_max_str_digits() to increase the limit"

/-- Digits of a base, the least significant first, as half as many digits of its square. -/
def paired (base : Nat) : List Nat → List Nat
  | low :: high :: ds => (low + base * high) :: paired base ds
  | ds => ds

/-- The value of digits of a base, the least significant first. -/
def valueIn (base : Nat) (ds : List Nat) : Nat := ds.foldr (fun d n => d + base * n) 0

/-- The value of digits of a base, which are first taken together in pairs so many times. -/
def assemble : Nat → Nat → List Nat → Nat
  | 0, base, ds => valueIn base ds
  | rounds + 1, base, ds => assemble rounds (base * base) (paired base ds)

/-- The value of decimal digits, the most significant first. -/
def ofDigits (digits : List Nat) : Nat := assemble digits.length.log2 10 digits.reverse

theorem valueIn_paired (base : Nat) (ds : List Nat) :
    valueIn (base * base) (paired base ds) = valueIn base ds := by
  fun_induction paired base ds with
  | case1 low high ds ih =>
    simp only [valueIn, List.foldr_cons] at ih ⊢
    rw [ih, Nat.mul_add, Nat.mul_assoc, Nat.add_assoc]
  | case2 ds h =>
    match ds, h with
    | [], _ => rfl
    | [d], _ => simp [valueIn]
    | low :: high :: ds, h => exact absurd rfl (h low high ds)

theorem assemble_eq (rounds base : Nat) (ds : List Nat) :
    assemble rounds base ds = valueIn base ds := by
  induction rounds generalizing base ds with
  | zero => rfl
  | succ rounds ih => rw [assemble, ih, valueIn_paired]

/-- Each digit after the others counts once, the others ten times. -/
theorem ofDigits_eq_foldl (digits : List Nat) :
    ofDigits digits = digits.foldl (fun n d => n * 10 + d) 0 := by
  rw [ofDigits, assemble_eq, valueIn, List.foldr_reverse]
  congr 1
  funext n d
  rw [Nat.add_comm, Nat.mul_comm]

/-- The values of a run of decimal digits of any script, up to `maxDigits` of them. -/
def readDigits (s : List Char) : Except IntFault Nat :=
  match s.mapM Text.digitValue? with
  | none => .error .malformed
  | some digits =>
    if maxDigits < digits.length then .error (.tooLong digits.length) else .ok (ofDigits digits)

/-- Splits off an optional sign; the flag says that it is a minus. -/
def takeSign : List Char → Bool × List Char
  | '-' :: s => (true, s)
  | '+' :: s => (false, s)
  | s => (false, s)

/-- Digits with single underscores between them, less the underscores. -/
def joinDigits? : List Char → Option (List Char)
  | [] => none
  | [c] => if Text.isDigit c then some [c] else none
  | c :: '_' :: s => if Text.isDigit c then (joinDigits? s).map (c :: ·) else none
  | c :: s => if Text.isDigit c then (joinDigits? s).map (c :: ·) else none

def readInt (s : String) : Except IntFault Int := do
  let (negative, digits) := takeSign (Text.withoutMargin s.toList)
  match joinDigits? digits with
  | none => .error .malformed
  | some ds =>
    let n ← readDigits ds
    return if negative then -(n : Int) else n

/-- An ASCII letter in lower case, any other character as it is. -/
def lowerLatin (c : Char) : Char :=
  if 'A' ≤ c && c ≤ 'Z' then Char.ofNat (c.toNat + 32) else c

/-- A run of digits with underscores between them, or nothing, in front of a text. -/
def spanDigits (s : List Char) : List Char × List Char :=
  s.span fun c => Text.isDigit c || c = '_'

def optionalDigits? (s : List Char) : Option (List Char) :=
  if s.isEmpty then some [] else joinDigits? s

/-- The exponent part of a number: nothing, or a mark with a signed run of digits. -/
def readExponent? : List Char → Option Int
  | [] => some 0
  | c :: s =>
    if lowerLatin c = 'e' then
      let (negative, digits) := takeSign s
      (joinDigits? digits).bind fun ds => (ds.mapM Text.digitValue?).map fun vs =>
        -- an exponent of more than ten digits is as good as one of ten
        let n := ofDigits ((vs.dropWhile (· = 0)).take 10)
        if negative then -(n : Int) else n
    else none

def readMagnitude? (negative : Bool) (s : List Char) : Option Binary64 := do
  let (whole, rest) := spanDigits s
  let (fraction, rest) :=
    match rest with
    | '.' :: r => spanDigits r
    | r => ([], r)
  let ws ← optionalDigits? whole
  let fs ← optionalDigits? fraction
  if ws.isEmpty && fs.isEmpty then none
  else
    let digits ← (ws ++ fs).mapM Text.digitValue?
    let e ← readExponent? rest
    return .ofDecimal negative (ofDigits digits) (e - fs.length)

/-- Reads a floating-point number; the words for infinity and not-a-number are read in any case. -/
def readFloat? (s : String) : Option Binary64 :=
  let (negative, body) := takeSign (Text.withoutMargin s.toList)
  let word := String.ofList (body.map lowerLatin)
  if word = "nan" then some .nan
  else if word = "inf" || word = "infinity" then some (.infinite negative)
  else readMagnitude? negative body

end PerfReview.Number
