/-!
# Blank characters

White space, and the trimming of texts that rests on it. Besides the ASCII blanks it holds the four
information separators, the next-line control, and the spaces and separators of the character
standard; the zero-width characters are not blank.
-/

namespace PerfReview.Text

def isBlank (c : Char) : Bool :=
  let n := c.toNat
  (9 ≤ n && n ≤ 13) || (28 ≤ n && n ≤ 32) || n == 0x85 || n == 0xA0 || n == 0x1680 ||
    (0x2000 ≤ n && n ≤ 0x200A) || n == 0x2028 || n == 0x2029 || n == 0x202F || n == 0x205F ||
    n == 0x3000

/-- The blanks within a line: the space and the tab. -/
def isGap (c : Char) : Bool := c = ' ' || c = '\t'

def trimStart (s : List Char) : List Char := s.dropWhile isBlank

def trimEnd (s : List Char) : List Char := (s.reverse.dropWhile isBlank).reverse

/-- White space that may stand around a number; the separators of records are none. -/
def isMargin (c : Char) : Bool := isBlank c && !(0x1C ≤ c.toNat && c.toNat ≤ 0x1F)

/-- The text without the white space around the number in it. -/
def withoutMargin (s : List Char) : List Char :=
  ((s.dropWhile isMargin).reverse.dropWhile isMargin).reverse

/-- The text without its outer white space. -/
def trim (s : List Char) : List Char := trimEnd (trimStart s)

/-- The text without its outer white space. -/
def strip (s : String) : String := String.ofList (trim s.toList)

def isAllBlank (s : String) : Bool := s.toList.all isBlank

/-- A text that is given and not empty. -/
def filled (s : Option String) : Option String := s.filter (· ≠ "")

theorem isBlank_of_isGap {c : Char} (h : isGap c = true) : isBlank c = true := by
  simp [isGap] at h
  rcases h with rfl | rfl <;> decide

end PerfReview.Text
