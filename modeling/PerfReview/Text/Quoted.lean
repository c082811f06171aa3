import PerfReview.Text.Printable
import PerfReview.Text.Utf8

/-!
# Quoted texts

A text between quotation marks, as messages and listings of values show it. The mark is an
apostrophe, or a double mark where the text holds apostrophes and no double mark. A backslash
stands before a backslash and before the mark; line feeds, returns and tabs have letters; any other
character that is not printable is written by its code point in two, four or eight digits.
-/

namespace PerfReview.Text

def quotedChar (mark c : Char) : List Char :=
  let n := codeOf c
  if c = mark || c = '\\' then ['\\', c]
  else if c = '\n' then ['\\', 'n']
  else if c = '\r' then ['\\', 'r']
  else if c = '\t' then ['\\', 't']
  else if isPrintable c then [c]
  else if n < 0x100 then '\\' :: 'x' :: hexPadded 2 n
  else if n < 0x10000 then '\\' :: 'u' :: hexPadded 4 n
  else '\\' :: 'U' :: hexPadded 8 n

def quotationMark (s : List Char) : Char :=
  if s.contains '\x27' && !s.contains '\x22' then '\x22' else '\x27'

def quoted (s : String) : String :=
  let mark := quotationMark s.toList
  String.ofList (mark :: s.toList.flatMap (quotedChar mark) ++ [mark])

end PerfReview.Text
