import PerfReview.Number.Shortest

/-!
# The text of numbers

Integers are written in decimal. Floating-point numbers are written with their shortest digits: as
positional numbers with a point while the order of magnitude is moderate, and with an exponent of at
least two digits and a sign otherwise. A `Layout` fixes the limits and the words for the values that
are no numbers.
-/

namespace PerfReview.Number

/-- How floating-point numbers are written. -/
structure Layout where
  /-- The least power of ten whose numbers are written positionally. -/
  minOrder : Int
  /-- The least power of ten above those. -/
  maxOrder : Int
  nan : String
  infinity : String

namespace Layout

def plain : Layout := ⟨-4, 16, "nan", "inf"⟩

def json : Layout := ⟨-4, 16, "NaN", "Infinity"⟩

/-- Drops zeros at the end, counting them into the power of ten. -/
def normalDigits (digits : List Char) (k : Int) : List Char × Int :=
  let kept := (digits.reverse.dropWhile (· = '0')).reverse
  (kept, k + ((digits.length : Int) - kept.length))

def zeros (n : Nat) : List Char := List.replicate n '0'

/-- Digits that count `10 ^ k`, written with a point. -/
def positional (digits : List Char) (k : Int) : List Char :=
  let point : Int := digits.length + k
  if 0 ≤ k then digits ++ zeros k.toNat ++ ['.', '0']
  else if 0 < point then digits.take point.toNat ++ '.' :: digits.drop point.toNat
  else '0' :: '.' :: zeros (-point).toNat ++ digits

/-- Digits with an exponent; `order` is the power of ten of the first one. -/
def scientific (digits : List Char) (order : Int) : List Char :=
  let exponent := Nat.toDigits 10 order.natAbs
  let padded := if exponent.length < 2 then '0' :: exponent else exponent
  let head :=
    match digits with
    | d :: r :: rest => d :: '.' :: r :: rest
    | ds => ds
  head ++ 'e' :: (if order < 0 then '-' else '+') :: padded

def magnitude (l : Layout) (mantissa : Nat) (exponent : Int) : List Char :=
  let s := Binary64.shortest mantissa exponent
  let (digits, k) := normalDigits (Nat.toDigits 10 s.1) s.2
  let order : Int := k + digits.length - 1
  if l.minOrder ≤ order && order < l.maxOrder then positional digits k
  else scientific digits order

def signed (negative : Bool) (s : List Char) : List Char := if negative then '-' :: s else s

def text (l : Layout) (x : Binary64) : String :=
  String.ofList <| match x with
    | .nan => l.nan.toList
    | .infinite s => signed s l.infinity.toList
    | .finite s 0 _ => signed s ['0', '.', '0']
    | .finite s m e => signed s (l.magnitude m e)

end Layout

def natText (n : Nat) : String := String.ofList (Nat.toDigits 10 n)

def intText (n : Int) : String :=
  String.ofList (Layout.signed (n < 0) (Nat.toDigits 10 n.natAbs))

/-- A number rounded to an integer, with its sign kept. -/
def Binary64.wholeText (x : Binary64) : String :=
  match x with
  | .finite s m e => String.ofList (Layout.signed s (Nat.toDigits 10 (unitsAt 0 m e)))
  | x => Layout.plain.text x

end PerfReview.Number
