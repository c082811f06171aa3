import PerfReview.Text.Utf8

/-!
# Wide encodings

Bytes read as characters in units of two or four bytes, in either order, and the encoding that the
zero bytes at the front of an ASCII document give away. A surrogate without its partner is read as
one; bytes that fill no unit, and codes beyond the last character, cannot be read.
-/

namespace PerfReview.Text

/-- How bytes stand for characters. -/
inductive Encoding where
  | bytes
  | pairs (bigFirst : Bool)
  | fours (bigFirst : Bool)
  deriving DecidableEq, Repr

def unitValue (bigFirst : Bool) (unit : List UInt8) : Nat :=
  (if bigFirst then unit else unit.reverse).foldl (fun n b => n * 256 + b.toNat) 0

/-- The units of two bytes that a byte sequence is cut into. -/
def pairUnits (bigFirst : Bool) : List UInt8 → Option (List Nat)
  | [] => some []
  | [_] => none
  | a :: b :: rest => (pairUnits bigFirst rest).map (unitValue bigFirst [a, b] :: ·)

/-- The units of four bytes that a byte sequence is cut into. -/
def fourUnits (bigFirst : Bool) : List UInt8 → Option (List Nat)
  | [] => some []
  | a :: b :: c :: d :: rest =>
    (fourUnits bigFirst rest).map (unitValue bigFirst [a, b, c, d] :: ·)
  | _ => none

/-- The characters of units of two bytes; two surrogates that belong together make one. -/
def ofPairUnits : List Nat → List Char
  | [] => []
  | [n] => [ofCode n]
  | high :: low :: rest =>
    if 0xD800 ≤ high && high < 0xDC00 && 0xDC00 ≤ low && low < 0xE000 then
      Char.ofNat (0x10000 + (high - 0xD800) * 0x400 + (low - 0xDC00)) :: ofPairUnits rest
    else ofCode high :: ofPairUnits (low :: rest)

def ofFourUnits (units : List Nat) : Option (List Char) :=
  units.mapM fun n => if n < 0x110000 then some (ofCode n) else none

/-- The encoding of a document that starts with two characters of ASCII. -/
def Encoding.ofDocument : List UInt8 → Encoding
  | 0 :: b :: _ :: _ :: _ => if b = 0 then .fours true else .pairs true
  | _ :: 0 :: c :: d :: _ => if c = 0 && d = 0 then .fours false else .pairs false
  | [0, _] => .pairs true
  | [_, 0] => .pairs false
  | _ => .bytes

def Encoding.decode? (bytes : List UInt8) : Encoding → Option (List Char)
  | .bytes => (decodeStrict bytes).toOption
  | .pairs bigFirst => (pairUnits bigFirst bytes).map ofPairUnits
  | .fours bigFirst => (fourUnits bigFirst bytes).bind ofFourUnits

end PerfReview.Text
