/-!
# Surrogates

Escapes in units of sixteen bits write a character beyond U+FFFF as two surrogates, units between
U+D800 and U+DFFF. A document can hold one of them alone, which is no character. A text keeps it as
a stand-in, one of the 2048 code points U+9D800 to U+9DFFF, to which no characters are assigned: the
stand-in is written as the surrogate that it stands for, and it has no bytes, so neither a file nor a
path can hold it.

Texts are so restricted in three ways. One that holds a code point of the stand-ins itself is read as
if it held the surrogate. Names of files that are not UTF-8, which the system shows with surrogates
for their bytes, do not occur. And in the order of texts a stand-in comes behind the characters
U+E000 to U+9D7FF, where the surrogate itself comes before them.
-/

namespace PerfReview.Text

/-- The first code point of the stand-ins. -/
def firstStandIn : Nat := 0x9D800

def isSurrogateCode (n : Nat) : Bool := 0xD800 ≤ n && n ≤ 0xDFFF

/-- The character that a code point is kept as. The code points of the stand-ins are kept as they are,
so that they cannot be told from surrogates. -/
def ofCode (n : Nat) : Char :=
  if isSurrogateCode n then Char.ofNat (firstStandIn + (n - 0xD800)) else Char.ofNat n

/-- The character stands for a surrogate. -/
def isSurrogate (c : Char) : Bool := firstStandIn ≤ c.toNat && c.toNat < firstStandIn + 0x800

/-- The code point that a character is written by. -/
def codeOf (c : Char) : Nat := if isSurrogate c then 0xD800 + (c.toNat - firstStandIn) else c.toNat

/-- Reading a code point and writing it are inverse for surrogates. -/
theorem codeOf_ofCode {n : Nat} (h : isSurrogateCode n = true) : codeOf (ofCode n) = n := by
  simp only [isSurrogateCode, Bool.and_eq_true, decide_eq_true_eq] at h
  have hv : (firstStandIn + (n - 0xD800)).isValidChar := by
    right
    simp only [firstStandIn]
    omega
  have hc : (ofCode n).toNat = firstStandIn + (n - 0xD800) := by
    have hs : isSurrogateCode n = true := by simp [isSurrogateCode, h]
    rw [ofCode, if_pos hs, Char.ofNat, dif_pos hv]
    rfl
  have hs : isSurrogate (ofCode n) = true := by
    simp only [isSurrogate, hc, Bool.and_eq_true, decide_eq_true_eq]
    omega
  simp only [codeOf, hs, hc, if_true]
  omega

end PerfReview.Text
