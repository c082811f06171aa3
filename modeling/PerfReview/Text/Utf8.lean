import PerfReview.Text.Surrogate

/-!
# UTF-8

Bytes read as characters, and characters written as bytes. `pieces` cuts a byte sequence into
characters and malformed stretches: a stretch is the longest run of bytes that starts a character
and cannot be continued, or one byte that starts none. The lenient reading shows each stretch as one
replacement character; the strict reading reports the first. Every character can be written but the
surrogates.
-/

namespace PerfReview.Text

/-- What is wrong with a malformed stretch of bytes. -/
inductive MalformedCause where
  | start
  | continuation
  | cutOff
  deriving DecidableEq, Repr

/-- A malformed stretch: the offset of its first byte, that byte, and the number of its bytes. -/
structure Malformed where
  offset : Nat
  lead : UInt8
  length : Nat
  cause : MalformedCause
  deriving DecidableEq, Repr

namespace Malformed

def reason (m : Malformed) : String :=
  match m.cause with
  | .start => "invalid start byte"
  | .continuation => "invalid continuation byte"
  | .cutOff => "unexpected end of data"

def hexDigits (b : UInt8) : String :=
  String.ofList [Nat.digitChar (b.toNat / 16), Nat.digitChar (b.toNat % 16)]

def message (m : Malformed) : String :=
  let place :=
    if m.length = 1 then s!"byte 0x{hexDigits m.lead} in position {m.offset}"
    else s!"bytes in position {m.offset}-{m.offset + m.length - 1}"
  s!"'utf-8' codec can't decode {place}: {m.reason}"

end Malformed

/-- A part of a decoded byte sequence. -/
inductive Piece where
  | char (c : Char)
  | malformed (m : Malformed)
  deriving DecidableEq, Repr

/-- A character begun and not yet complete: its lead byte, the bytes read, the value read so far,
the number of bytes to come, and the bounds of the next one. -/
structure Begun where
  lead : UInt8
  read : Nat
  value : Nat
  missing : Nat
  low : Nat
  high : Nat

/-- The state of a decoder: the offset of the next byte, the character begun, and the pieces so
far, the latest first. -/
structure Decoder where
  offset : Nat := 0
  begun : Option Begun := none
  done : List Piece := []

namespace Decoder

/-- What a lead byte of several promises: the bits of its value, the bytes to come, and the bounds
of the first of them, which keep out overlong forms, surrogates and values beyond the last
character. -/
def promise? (b : Nat) : Option (Nat × Nat × Nat × Nat) :=
  if 0xC2 ≤ b && b ≤ 0xDF then some (b - 0xC0, 1, 0x80, 0xBF)
  else if b = 0xE0 then some (0, 2, 0xA0, 0xBF)
  else if b = 0xED then some (0xD, 2, 0x80, 0x9F)
  else if 0xE1 ≤ b && b ≤ 0xEF then some (b - 0xE0, 2, 0x80, 0xBF)
  else if b = 0xF0 then some (0, 3, 0x90, 0xBF)
  else if 0xF1 ≤ b && b ≤ 0xF3 then some (b - 0xF0, 3, 0x80, 0xBF)
  else if b = 0xF4 then some (4, 3, 0x80, 0x8F)
  else none

/-- Reads a byte at the start of a character. -/
def first (d : Decoder) (b : UInt8) : Decoder :=
  if b.toNat < 0x80 then
    { d with offset := d.offset + 1, begun := none, done := .char (Char.ofNat b.toNat) :: d.done }
  else
    match promise? b.toNat with
    | some (value, missing, low, high) =>
      { d with offset := d.offset + 1, begun := some ⟨b, 1, value, missing, low, high⟩ }
    | none =>
      { d with
        offset := d.offset + 1, begun := none,
        done := .malformed ⟨d.offset, b, 1, .start⟩ :: d.done }

def abandon (d : Decoder) (g : Begun) (cause : MalformedCause) : Decoder :=
  { d with
    begun := none, done := .malformed ⟨d.offset - g.read, g.lead, g.read, cause⟩ :: d.done }

def step (d : Decoder) (b : UInt8) : Decoder :=
  match d.begun with
  | none => d.first b
  | some g =>
    if g.low ≤ b.toNat && b.toNat ≤ g.high then
      let value := g.value * 64 + (b.toNat - 0x80)
      if g.missing = 1 then
        { d with offset := d.offset + 1, begun := none, done := .char (Char.ofNat value) :: d.done }
      else
        { d with
          offset := d.offset + 1
          begun := some { g with
            read := g.read + 1, value := value, missing := g.missing - 1, low := 0x80, high := 0xBF } }
    else (d.abandon g .continuation).first b

def finish (d : Decoder) : List Piece :=
  match d.begun with
  | none => d.done.reverse
  | some g => (d.abandon g .cutOff).done.reverse

end Decoder

/-- The characters and malformed stretches of a byte sequence, in order. -/
def pieces (bytes : List UInt8) : List Piece := (bytes.foldl Decoder.step {}).finish

/-- The characters of the bytes, with a replacement character for each malformed stretch. -/
def decodeLenient (bytes : List UInt8) : List Char :=
  (pieces bytes).map fun
    | .char c => c
    | .malformed _ => '\uFFFD'

/-- The characters of the bytes without the malformed stretches. -/
def decodeSkipping (bytes : List UInt8) : List Char :=
  (pieces bytes).filterMap fun
    | .char c => some c
    | .malformed _ => none

/-- The characters of the bytes, or the first malformed stretch. -/
def decodeStrict (bytes : List UInt8) : Except Malformed (List Char) :=
  (pieces bytes).mapM fun
    | .char c => .ok c
    | .malformed m => .error m

def encode (s : String) : List UInt8 := s.toUTF8.toList

/-- The lower digits of `n` in base sixteen, `count` of them. -/
def hexPadded : Nat → Nat → List Char
  | 0, _ => []
  | count + 1, n => hexPadded count (n / 16) ++ [Nat.digitChar (n % 16)]

/-- A run of surrogates in a text: its offset, its first surrogate, and its length. -/
structure Unwritable where
  offset : Nat
  first : Char
  length : Nat
  deriving DecidableEq, Repr

namespace Unwritable

def message (u : Unwritable) : String :=
  let hex := String.ofList (hexPadded 4 (codeOf u.first))
  let place :=
    if u.length = 1 then s!"character '\\u{hex}' in position {u.offset}"
    else s!"characters in position {u.offset}-{u.offset + u.length - 1}"
  s!"'utf-8' codec can't encode {place}: surrogates not allowed"

end Unwritable

/-- The first run of surrogates of a text. A text that holds a stand-in of its own, which has bytes
outside this model, counts as one that holds a surrogate. -/
def unwritable? (s : String) : Option Unwritable :=
  let before := s.toList.takeWhile (!isSurrogate ·)
  match s.toList.drop before.length with
  | [] => none
  | c :: rest => some ⟨before.length, c, 1 + (rest.takeWhile isSurrogate).length⟩

/-- The bytes of a text, or its first run of surrogates. -/
def encodeStrict (s : String) : Except Unwritable (List UInt8) :=
  match unwritable? s with
  | some u => .error u
  | none => .ok (encode s)

end PerfReview.Text
