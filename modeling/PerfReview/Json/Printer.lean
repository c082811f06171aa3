import PerfReview.Json.Basic
import PerfReview.Number.Layout
import PerfReview.Text.Quoted

/-!
# Writing JSON

Documents over several lines: each item of a list and each field of an object on a line of its own,
two blanks deeper than its container; empty containers on one line. Texts keep all characters but
the quotation mark, the backslash and the controls.
-/

namespace PerfReview.Json

namespace Printer

def escaped (c : Char) : List Char :=
  if c = '\x22' then ['\\', '\x22']
  else if c = '\\' then ['\\', '\\']
  else if c = '\n' then ['\\', 'n']
  else if c = '\r' then ['\\', 'r']
  else if c = '\t' then ['\\', 't']
  else if c = '\x08' then ['\\', 'b']
  else if c = '\x0c' then ['\\', 'f']
  else if c.toNat < 0x20 then '\\' :: 'u' :: Text.hexPadded 4 c.toNat
  else [c]

def string (s : String) : List Char := '\x22' :: s.toList.flatMap escaped ++ ['\x22']

/-- A line break with the indentation of a depth. -/
def newline (depth : Nat) : List Char := '\n' :: List.replicate (2 * depth) ' '

mutual

/-- The text of a value whose first line stands at `depth`. -/
def value (depth : Nat) : Json → List Char
  | .null => "null".toList
  | .bool true => "true".toList
  | .bool false => "false".toList
  | .int n => (Number.intText n).toList
  | .float x => (Number.Layout.json.text x).toList
  | .text s => string s
  | .list [] => "[]".toList
  | .list (v :: vs) =>
    '[' :: newline (depth + 1) ++ value (depth + 1) v ++ items depth vs ++ newline depth ++ [']']
  | .object [] => ['\x7b', '\x7d']
  | .object ((k, v) :: fs) =>
    '\x7b' :: newline (depth + 1) ++ string k ++ ':' :: ' ' :: value (depth + 1) v ++
      fields depth fs ++ newline depth ++ ['\x7d']

/-- The further items of a list. -/
def items (depth : Nat) : List Json → List Char
  | [] => []
  | v :: vs => ',' :: newline (depth + 1) ++ value (depth + 1) v ++ items depth vs

def fields (depth : Nat) : List (String × Json) → List Char
  | [] => []
  | (k, v) :: fs =>
    ',' :: newline (depth + 1) ++ string k ++ ':' :: ' ' :: value (depth + 1) v ++ fields depth fs

end

end Printer

namespace Printer

def unitEscape (n : Nat) : List Char := '\\' :: 'u' :: Text.hexPadded 4 n

/-- The form of a character of a text that is to hold ASCII alone; characters beyond the first
65536 are written as two surrogates. -/
def asciiEscaped (c : Char) : List Char :=
  let n := Text.codeOf c
  if n < 0x7F then escaped c
  else if n = 0x7F then [c]
  else if n < 0x10000 then unitEscape n
  else
    unitEscape (0xD800 + (n - 0x10000) / 0x400) ++ unitEscape (0xDC00 + (n - 0x10000) % 0x400)

/-- How a document is written on one line. -/
structure LineStyle where
  char : Char → List Char
  comma : List Char
  colon : List Char

/-- All in ASCII, with a blank after commas and colons. -/
def asciiLine : LineStyle := ⟨asciiEscaped, [',', ' '], [':', ' ']⟩

/-- With as few characters as can be. -/
def denseLine : LineStyle := ⟨escaped, [','], [':']⟩

def lineString (st : LineStyle) (s : String) : List Char :=
  '\x22' :: s.toList.flatMap st.char ++ ['\x22']

mutual

def line (st : LineStyle) : Json → List Char
  | .null => "null".toList
  | .bool true => "true".toList
  | .bool false => "false".toList
  | .int n => (Number.intText n).toList
  | .float x => (Number.Layout.json.text x).toList
  | .text s => lineString st s
  | .list [] => "[]".toList
  | .list (v :: vs) => '[' :: line st v ++ lineItems st vs ++ [']']
  | .object [] => ['\x7b', '\x7d']
  | .object ((k, v) :: fs) =>
    '\x7b' :: lineString st k ++ st.colon ++ line st v ++ lineFields st fs ++ ['\x7d']

def lineItems (st : LineStyle) : List Json → List Char
  | [] => []
  | v :: vs => st.comma ++ line st v ++ lineItems st vs

def lineFields (st : LineStyle) : List (String × Json) → List Char
  | [] => []
  | (k, v) :: fs => st.comma ++ lineString st k ++ st.colon ++ line st v ++ lineFields st fs

end

end Printer

def compact (j : Json) : String := String.ofList (Printer.line Printer.asciiLine j)

/-- The document on one line, as short as can be. -/
def dense (j : Json) : String := String.ofList (Printer.line Printer.denseLine j)

def print (j : Json) : String := String.ofList (Printer.value 0 j)

end PerfReview.Json
