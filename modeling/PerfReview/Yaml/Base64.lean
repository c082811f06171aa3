/-!
# Bytes as text

Four characters of an alphabet of sixty-four stand for three bytes, and equals signs fill up the
last four. Other characters between them are passed over; what follows the fill is not read.
-/

namespace PerfReview.Yaml.Base64

def digit? (c : Char) : Option Nat :=
  if 'A' ≤ c && c ≤ 'Z' then some (c.toNat - 65)
  else if 'a' ≤ c && c ≤ 'z' then some (c.toNat - 71)
  else if '0' ≤ c && c ≤ '9' then some (c.toNat + 4)
  else if c = '+' then some 62
  else if c = '/' then some 63
  else none

/-- Reads from a place in a group of four: `left` holds the bits of the last digit that belong to
the next byte, and `fill` counts the signs of the fill. -/
def readFrom (place left fill : Nat) : List Char → Option (List UInt8)
  | [] => if place = 0 then some [] else none
  | '=' :: s =>
    if 2 ≤ place && 4 ≤ place + fill + 1 then some []
    else readFrom place left (if 2 ≤ place then fill + 1 else fill) s
  | c :: s =>
    match digit? c with
    | none => readFrom place left fill s
    | some d =>
      let byte (n : Nat) (rest : Option (List UInt8)) := rest.map (UInt8.ofNat n :: ·)
      match place with
      | 0 => readFrom 1 d 0 s
      | 1 => byte (left * 4 + d / 16) (readFrom 2 (d % 16) 0 s)
      | 2 => byte (left * 16 + d / 4) (readFrom 3 (d % 4) 0 s)
      | _ => byte (left * 64 + d) (readFrom 0 0 0 s)

def read? (s : List Char) : Option (List UInt8) := readFrom 0 0 0 s

end PerfReview.Yaml.Base64
