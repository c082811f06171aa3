import PerfReview.Number.Layout
import PerfReview.Text.Lines

/-!
# Numbered listings

A text with its lines numbered from one, as the requests show files. The numbers are those that
answers cite.
-/

namespace PerfReview.Listing

def numberedLine (number : Nat) (line : List Char) : List Char :=
  Nat.toDigits 10 number ++ ':' :: ' ' :: line

/-- Lines with their numbers, the first one given. -/
def numberedFrom : Nat → List (List Char) → List (List Char)
  | _, [] => []
  | n, l :: ls => numberedLine n l :: numberedFrom (n + 1) ls

def numbered (text : String) : String :=
  String.ofList ((numberedFrom 1 (Text.splitLines text.toList)).intersperse ['\n']).flatten

end PerfReview.Listing
