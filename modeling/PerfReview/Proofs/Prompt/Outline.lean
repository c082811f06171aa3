import PerfReview.Prompt.Request
import PerfReview.Proofs.Text.Cut

/-!
# The outline of a request

A request read back from its text alone. A heading is a line of the form `=== p ===`; it names the
file `p`, and the lines up to the next heading are the section of that file. `Outline.lines` puts an
outline together again: an outline is found in its lines as soon as no heading stands inside of its
parts.
-/

namespace PerfReview.Prompt

open Text

/-! ## Headings -/

def heading (path : String) : List Char := "=== ".toList ++ (path.toList ++ " ===".toList)

def headingPath? (l : List Char) : Option String :=
  (dropHead? "=== ".toList l).bind fun rest =>
    (dropHead? " ===".toList.reverse rest.reverse).map fun path => String.ofList path.reverse

theorem headingPath?_eq_some_iff {l : List Char} {path : String} :
    headingPath? l = some path ↔ l = heading path := by
  simp only [headingPath?, Option.bind_eq_some_iff, Option.map_eq_some_iff, dropHead?_eq_some_iff]
  constructor
  · rintro ⟨rest, rfl, p, hp, rfl⟩
    have hrest : rest = p.reverse ++ " ===".toList := by
      rw [← List.reverse_reverse rest, hp, List.reverse_append, List.reverse_reverse]
    simp only [hrest, heading, String.toList_ofList]
  · rintro rfl
    exact ⟨_, rfl, path.toList.reverse, by rw [List.reverse_append], by simp⟩

theorem headingPath?_heading (path : String) : headingPath? (heading path) = some path :=
  headingPath?_eq_some_iff.2 rfl

theorem heading_not_white (path : String) : ¬White (heading path) := fun h =>
  absurd (h '=' (by simp [heading])) (by decide)

theorem trimEnd_heading (path : String) : trimEnd (heading path) = heading path := by
  have hmark : trimEnd " ===".toList = " ===".toList := by decide
  rw [heading, ← List.append_assoc, trimEnd_append _ fun h => absurd (h '=' (by simp)) (by decide),
    hmark]

theorem feedless_heading {path : String} (h : '\n' ∉ path.toList) : '\n' ∉ heading path := by
  simp [heading, h]

def Plain (ls : List (List Char)) : Prop := ∀ l ∈ ls, headingPath? l = none

theorem headingPath?_eq_none {l : List Char} (h : l.head? ≠ some '=') : headingPath? l = none := by
  rw [Option.eq_none_iff_forall_not_mem]
  rintro path hpath
  obtain rfl := headingPath?_eq_some_iff.1 hpath
  exact h rfl

/-! ## Outlines -/

/-- The lines of a request, cut at its headings. -/
structure Outline where
  /-- The lines before the first heading. -/
  preamble : List (List Char)
  /-- The paths of the headings with the lines below each. -/
  sections : List (String × List (List Char))
  deriving DecidableEq, Repr

namespace Outline

def push (l : List Char) (o : Outline) : Outline :=
  match headingPath? l with
  | some path => ⟨[], (path, o.preamble) :: o.sections⟩
  | none => ⟨l :: o.preamble, o.sections⟩

def ofLines (ls : List (List Char)) : Outline := ls.foldr push ⟨[], []⟩

def ofText (request : String) : Outline := ofLines (splitFeeds request.toList)

def block (s : String × List (List Char)) : List (List Char) := heading s.1 :: s.2

def lines (o : Outline) : List (List Char) := o.preamble ++ o.sections.flatMap block

theorem filterMap_headingPath? (ls : List (List Char)) :
    ls.filterMap headingPath? = (ofLines ls).sections.map (·.1) := by
  induction ls with
  | nil => rfl
  | cons l ls ih =>
    change _ = (push l (ofLines ls)).sections.map (·.1)
    rw [push]
    split
    · rename_i path hpath
      rw [List.filterMap_cons_some hpath, ih, List.map_cons]
    · rename_i hpath
      rw [List.filterMap_cons_none hpath, ih]

theorem ofLines_append {ls : List (List Char)} (h : Plain ls) (rest : List (List Char)) :
    ofLines (ls ++ rest) = ⟨ls ++ (ofLines rest).preamble, (ofLines rest).sections⟩ := by
  induction ls with
  | nil => rfl
  | cons l ls ih =>
    obtain ⟨hl, hls⟩ := List.forall_mem_cons.1 h
    change push l (ofLines (ls ++ rest)) = _
    rw [push, hl, ih hls]
    rfl

theorem ofLines_blocks {sections : List (String × List (List Char))}
    (h : ∀ s ∈ sections, Plain s.2) : ofLines (sections.flatMap block) = ⟨[], sections⟩ := by
  induction sections with
  | nil => rfl
  | cons s rest ih =>
    obtain ⟨hs, hrest⟩ := List.forall_mem_cons.1 h
    change push (heading s.1) (ofLines (s.2 ++ rest.flatMap block)) = _
    rw [push, headingPath?_heading, ofLines_append hs, ih hrest, List.append_nil]

theorem ofLines_lines {o : Outline} (hpreamble : Plain o.preamble)
    (hbody : ∀ s ∈ o.sections, Plain s.2) : ofLines o.lines = o := by
  rw [lines, ofLines_append hpreamble, ofLines_blocks hbody, List.append_nil]

/-- The list of files: the lines before the first heading that start with a hyphen. -/
def manifest (o : Outline) : List (List Char) := o.preamble.filter (·.head? = some '-')

end Outline

end PerfReview.Prompt
