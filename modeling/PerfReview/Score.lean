import PerfReview.Group
import PerfReview.Text.Lines

/-!
# Priorities

The score of a file decides whether it is reviewed when there are too many. It is the sum of six
bonuses, all but the one for small files drawn from the path alone, so it never grows with the size
of the file.
-/

namespace PerfReview

namespace Score

/-- The extension of the last name of a path, in small letters; a name that only starts with a dot
has none. -/
def extension (path : List Char) : String :=
  let name := ((Text.splitOn '/' path).getLast?).getD []
  match Text.splitLast? '.' name with
  | some (_ :: _, after) => Text.small (String.ofList ('.' :: after))
  | _ => ""

def slashed (path : String) : List Char :=
  path.toList.map fun c => if c = '\\' then '/' else c

def entryBonus (path : List Char) : Int :=
  if ["index.", "main."].any (fun m => Text.occursIn m.toList path) then 10 else 0

def appBonus (path : List Char) : Int :=
  if ["app.", "App."].any (fun m => Text.occursIn m.toList path) then 8 else 0

/-- Files below a folder of the given name. -/
def folderBonus (folder : String) (path : List Char) : Int :=
  if (Text.splitOn '/' path).dropLast.contains folder.toList then 5 else 0

/-- Ten points less one for each full ten kilobytes. -/
def sizeBonus (size : Int) : Int := max 0 (10 - size / 10240)

def kindBonus (path : List Char) : Int :=
  match Group.ofExtension? (extension path) with
  | some .component | some .template => 3
  | some .javascript | some .typescript => 2
  | some .stylesheet => 1
  | _ => 0

end Score

open Score in
/-- The priority of a file of the given size in bytes. -/
def score (path : String) (size : Int) : Int :=
  let p := slashed path
  entryBonus p + appBonus p + folderBonus "components" p + folderBonus "pages" p +
    sizeBonus size + kindBonus p

theorem Score.sizeBonus_antitone {a b : Int} (h : a ≤ b) : sizeBonus b ≤ sizeBonus a := by
  unfold sizeBonus
  omega

theorem score_antitone (path : String) {a b : Int} (h : a ≤ b) : score path b ≤ score path a := by
  have := Score.sizeBonus_antitone h
  unfold score
  dsimp only
  omega

end PerfReview
