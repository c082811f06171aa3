import PerfReview.Proofs.Assoc
import PerfReview.Proofs.Number.Numeral
import PerfReview.Proofs.Prompt.Outline

/-!
# What a request shows of its files

The contents of a file cannot change the structure of the request that shows it: each of its lines
stands behind a number, and no heading starts with a digit. So the outline of a request has one
section for each file of the batch, in the order of the batch, and the section shows the lines of
the file and nothing else. The end of the request is trimmed, which touches the last line of the
last file at most.
-/

namespace PerfReview.Prompt

open Text

/-! ## Numbered lines -/

/-- The line is shown with the number. -/
def Numbered (k : Int) (l : List Char) : Prop :=
  ∃ rest, l = (Number.intText k).toList ++ ':' :: rest

/-- The lines are shown with the numbers from the given one on. -/
def CountedFrom : Nat → List (List Char) → Prop
  | _, [] => True
  | n, l :: ls => Numbered n l ∧ CountedFrom (n + 1) ls

/-- Lines of which the last one has lost the white space at its end. -/
def trimLast : List (List Char) → List (List Char)
  | [] => []
  | [l] => [trimEnd l]
  | l :: k :: ls => l :: trimLast (k :: ls)

/-- The lines that are not white. -/
def visible (ls : List (List Char)) : List (List Char) := ls.filter fun l => !l.all isBlank

namespace Numbered

variable {k k' : Int} {l : List Char}

theorem eq (h : Numbered k l) (h' : Numbered k' l) : k = k' := by
  have hspan : ∀ (n : Int) (rest : List Char),
      ((Number.intText n).toList ++ ':' :: rest).span (· ≠ ':') =
        ((Number.intText n).toList, ':' :: rest) := fun n rest => by
    refine span_append_of_stops (fun c hc => ?_) (stops_cons (by decide))
    rcases Number.hyphen_or_isDigit_of_mem_intText hc with rfl | hdigit
    · decide
    · exact decide_eq_true fun e => absurd (e ▸ hdigit) (by decide)
  obtain ⟨rest, rfl⟩ := h
  obtain ⟨rest', e⟩ := h'
  have hpieces := hspan k rest
  rw [e, hspan k' rest'] at hpieces
  exact Number.intText_injective (Prod.mk.inj hpieces).1.symm

theorem not_white (h : Numbered k l) : ¬White l := by
  obtain ⟨rest, rfl⟩ := h
  exact fun hwhite => absurd (hwhite ':' (by simp)) (by decide)

theorem plain (h : Numbered k l) : headingPath? l = none := by
  obtain ⟨rest, rfl⟩ := h
  refine headingPath?_eq_none fun hhead => ?_
  have hmem : '=' ∈ (Number.intText k).toList ++ [':'] := by
    cases htext : (Number.intText k).toList with
    | nil => simp [htext] at hhead
    | cons c s => simp_all
  rcases List.mem_append.1 hmem with hmem | hmem
  · rcases Number.hyphen_or_isDigit_of_mem_intText hmem with e | e <;> exact absurd e (by decide)
  · exact absurd hmem (by decide)

theorem trimEnd (h : Numbered k l) : Numbered k (Text.trimEnd l) := by
  obtain ⟨rest, rfl⟩ := h
  exact ⟨Text.trimEnd rest, trimEnd_append_cons (by decide) _ rest⟩

end Numbered

namespace CountedFrom

variable {n : Nat} {ls : List (List Char)}

theorem exists_numbered (h : CountedFrom n ls) : ∀ l ∈ ls, ∃ k, Numbered k l := by
  induction ls generalizing n with
  | nil => simp
  | cons l ls ih => exact List.forall_mem_cons.2 ⟨⟨n, h.1⟩, ih h.2⟩

theorem plain (h : CountedFrom n ls) : Plain ls := fun l hl =>
  let ⟨_, hk⟩ := h.exists_numbered l hl
  hk.plain

theorem not_white (h : CountedFrom n ls) : ∀ l ∈ ls, ¬White l := fun l hl =>
  let ⟨_, hk⟩ := h.exists_numbered l hl
  hk.not_white

theorem trimLast (h : CountedFrom n ls) : CountedFrom n (trimLast ls) := by
  induction ls generalizing n with
  | nil => exact h
  | cons l ls ih =>
    cases ls with
    | nil => exact ⟨h.1.trimEnd, h.2⟩
    | cons k ls => exact ⟨h.1, ih h.2⟩

theorem numbered_iff (h : CountedFrom n ls) (k : Int) :
    (∃ l ∈ ls, Numbered k l) ↔ n ≤ k ∧ k < n + ls.length := by
  induction ls generalizing n with
  | nil =>
    simp only [List.not_mem_nil, false_and, exists_false, List.length_nil, false_iff]
    omega
  | cons l ls ih =>
    have hfirst : Numbered k l ↔ k = n := ⟨fun hk => hk.eq h.1, fun e => e ▸ h.1⟩
    rw [List.exists_mem_cons_iff, hfirst, ih h.2, List.length_cons]
    omega

end CountedFrom

/-! ## The lines of one file -/

/-- The lines of a file as a request shows them. -/
def shown (f : Source) : List (List Char) :=
  (splitLines f.text.toList).mapIdx fun i l =>
    (Number.intText (i + 1)).toList ++ ':' :: ' ' :: l

theorem numberedFrom_eq_mapIdx (n : Nat) (ls : List (List Char)) :
    Listing.numberedFrom n ls = ls.mapIdx fun i l => Listing.numberedLine (n + i) l := by
  induction ls generalizing n with
  | nil => rfl
  | cons l ls ih =>
    rw [Listing.numberedFrom, ih, List.mapIdx_cons]
    simp only [Nat.add_zero, Nat.add_assoc, Nat.add_comm 1]

theorem shown_eq_numberedFrom (f : Source) :
    shown f = Listing.numberedFrom 1 (splitLines f.text.toList) := by
  rw [numberedFrom_eq_mapIdx, shown]
  congr
  funext i l
  rw [Number.toList_intText (by omega), Listing.numberedLine, Nat.add_comm 1]
  rfl

theorem length_shown (f : Source) : (shown f).length = f.lineCount := List.length_mapIdx

theorem countedFrom_numberedFrom (n : Nat) (ls : List (List Char)) :
    CountedFrom n (Listing.numberedFrom n ls) := by
  induction ls generalizing n with
  | nil => trivial
  | cons l ls ih =>
    refine ⟨⟨' ' :: l, ?_⟩, ih (n + 1)⟩
    rw [Number.toList_intText (Int.natCast_nonneg n), Listing.numberedLine, Int.natAbs_natCast]

theorem countedFrom_shown (f : Source) : CountedFrom 1 (shown f) := by
  rw [shown_eq_numberedFrom]
  exact countedFrom_numberedFrom 1 _

theorem feedless_shown (f : Source) : Feedless (shown f) := by
  intro l hl hfeed
  rw [shown, List.mem_mapIdx] at hl
  obtain ⟨i, hi, rfl⟩ := hl
  rcases List.mem_append.1 hfeed with hnumber | htext
  · rcases Number.hyphen_or_isDigit_of_mem_intText hnumber with e | e <;>
      exact absurd e (by decide)
  · have hline : '\n' ∈ (splitLines f.text.toList)[i] := by simpa using htext
    exact feedless_splitLines f.text.toList _ (List.getElem_mem hi) hline

/-- The white lines below the lines of a file. -/
def gap (f : Source) : List (List Char) := if (shown f).isEmpty then [[], []] else [[]]

theorem splitFeeds_numbered (f : Source) :
    splitFeeds (Listing.numbered f.text).toList ++ [[]] = shown f ++ gap f := by
  rw [Listing.numbered, String.toList_ofList, ← shown_eq_numberedFrom, gap]
  cases hshown : shown f with
  | nil => rfl
  | cons l ls =>
    rw [splitFeeds_flatten_intersperse (hshown ▸ feedless_shown f) (List.cons_ne_nil l ls)]
    rfl

theorem trimsTo_trimLast {ls w : List (List Char)} (hne : ls ≠ []) (hls : ∀ l ∈ ls, ¬White l)
    (hw : ∀ k ∈ w, White k) : TrimsTo (ls ++ w) (trimLast ls) := by
  induction ls with
  | nil => exact absurd rfl hne
  | cons l ls ih =>
    obtain ⟨hl, hrest⟩ := List.forall_mem_cons.1 hls
    cases ls with
    | nil => exact ⟨[], l, w, rfl, hl, hw, rfl⟩
    | cons k ls => exact (ih (List.cons_ne_nil k ls) hrest).prepend [l]

theorem white_gap (f : Source) : ∀ l ∈ gap f, White l := by
  intro l hl c hc
  rw [gap] at hl
  split at hl <;> simp_all

theorem visible_append_white {ls w : List (List Char)} (hls : ∀ l ∈ ls, ¬White l)
    (hw : ∀ k ∈ w, White k) : visible (ls ++ w) = ls := by
  have hkept : ls.filter (fun l => !l.all isBlank) = ls :=
    List.filter_eq_self.2 fun l hl => by simpa [White] using hls l hl
  have hcut : w.filter (fun l => !l.all isBlank) = [] :=
    List.filter_eq_nil_iff.2 fun l hl => by simpa [White] using hw l hl
  rw [visible, List.filter_append, hkept, hcut, List.append_nil]

/-! ## The lines of a request -/

/-- The section of a file that others follow. -/
def full (f : Source) : String × List (List Char) := (f.relative, shown f ++ gap f)

def sections : List Source → List (String × List (List Char))
  | [] => []
  | [f] => [(f.relative, trimLast (shown f))]
  | f :: g :: fs => full f :: sections (g :: fs)

def preamble (b : Batch) : List (List Char) :=
  (opening b.group ++ b.files.map manifestLine).map String.toList

def outline (b : Batch) : Outline where
  preamble := preamble b ++ if b.files.isEmpty then [] else [[]]
  sections := sections b.files

theorem feedless_label (g : Group) : '\n' ∉ g.label.toList := by
  cases g <;> rw [Group.label, String.toList_ofList] <;> decide

theorem feedless_opening (g : Group) : ∀ p ∈ opening g, '\n' ∉ p.toList := by
  have hlabel := feedless_label g
  simp only [opening, Severity.marker, fence, toString, List.forall_mem_cons, String.toList_append,
    List.mem_append, not_or, hlabel, not_false_eq_true, List.not_mem_nil, false_implies,
    implies_true, and_true]
  -- a literal is opened as the list of its characters, which is cheap to search
  repeat' apply And.intro
  all_goals
    rw [String.toList_ofList]
    decide

theorem head?_opening (g : Group) :
    ∀ p ∈ opening g, p.toList.head? ≠ some '=' ∧ p.toList.head? ≠ some '-' := by
  simp only [opening, Severity.marker, fence, toString, List.forall_mem_cons, String.toList_append,
    List.not_mem_nil, false_implies, implies_true, and_true]
  repeat' apply And.intro
  all_goals
    rw [String.toList_ofList]
    simp

theorem toList_manifestLine (f : Source) : (manifestLine f).toList =
    "- ".toList ++ f.relative.toList ++ " (".toList ++ Nat.toDigits 10 f.lineCount ++
      " lines)".toList := by
  simp [manifestLine, Number.natText, toString]

theorem feedless_manifestLine {f : Source} (h : '\n' ∉ f.relative.toList) :
    '\n' ∉ (manifestLine f).toList := by
  have hdigits : '\n' ∉ Nat.toDigits 10 f.lineCount := fun hmem =>
    absurd (Number.isDigit_of_mem_toDigits hmem) (by decide)
  simp [toList_manifestLine, h, hdigits]

theorem head?_manifestLine (f : Source) : (manifestLine f).toList.head? = some '-' := by
  rw [toList_manifestLine]
  simp

theorem preamble_eq_cons (b : Batch) : ∃ l ls, preamble b = l :: ls ∧ l.head? = some 'A' := by
  refine ⟨_, _, rfl, ?_⟩
  simp only [String.toList_append, toString]
  rw [String.toList_ofList]
  rfl

theorem plain_preamble (b : Batch) : Plain (preamble b) := by
  intro l hl
  obtain ⟨p, hp, rfl⟩ := List.mem_map.1 hl
  rcases List.mem_append.1 hp with hp | hp
  · exact headingPath?_eq_none (head?_opening b.group p hp).1
  · obtain ⟨f, -, rfl⟩ := List.mem_map.1 hp
    exact headingPath?_eq_none (by rw [head?_manifestLine]; decide)

theorem flatMap_splitFeeds_listing {f : Source} (h : '\n' ∉ f.relative.toList) :
    ((listing f).flatMap fun p => splitFeeds p.toList) = Outline.block (full f) := by
  have hheading : (s!"=== {f.relative} ===").toList = heading f.relative := by
    simp [heading, toString]
  have hbody := splitFeeds_numbered f
  simp only [listing, List.flatMap_cons, List.flatMap_nil, hheading,
    splitFeeds_eq_singleton (feedless_heading h)]
  rw [Outline.block, full, ← hbody]
  rfl

theorem splitFeeds_parts {b : Batch} (h : ∀ p ∈ b.paths, '\n' ∉ p.toList) :
    splitFeeds (String.intercalate "\n" (analysisParts (Request.subject b none))).toList =
      preamble b ++ [] :: (b.files.map full).flatMap Outline.block := by
  have hrelative : ∀ f ∈ b.files, '\n' ∉ f.relative.toList := fun f hf =>
    h f.relative (List.mem_map_of_mem hf)
  have hparts : analysisParts (Request.subject b none) =
      (opening b.group ++ b.files.map manifestLine) ++ "" :: b.files.flatMap listing := by
    simp [analysisParts, Request.subject, findingsPart]
  have hfeedless : ∀ p ∈ opening b.group ++ b.files.map manifestLine, '\n' ∉ p.toList := by
    intro p hp
    rcases List.mem_append.1 hp with hp | hp
    · exact feedless_opening b.group p hp
    · obtain ⟨f, hf, rfl⟩ := List.mem_map.1 hp
      exact feedless_manifestLine (hrelative f hf)
  have hlistings : ((b.files.flatMap listing).flatMap fun p => splitFeeds p.toList) =
      (b.files.map full).flatMap Outline.block := by
    rw [List.flatMap_assoc, List.flatMap_map]
    exact List.flatMap_congr fun f hf => flatMap_splitFeeds_listing (hrelative f hf)
  rw [splitFeeds_intercalate (by simp [hparts]), hparts, List.flatMap_append,
    flatMap_splitFeeds hfeedless, List.flatMap_cons, hlistings]
  rfl

/-- Trimming leaves the sections as they are, but for the end of the last one. -/
theorem trimsTo_sections {files : List Source} (hne : files ≠ []) :
    TrimsTo ((files.map full).flatMap Outline.block) ((sections files).flatMap Outline.block) := by
  induction files with
  | nil => exact absurd rfl hne
  | cons f files ih =>
    cases files with
    | cons g files =>
      rw [List.map_cons, List.flatMap_cons, sections, List.flatMap_cons]
      exact (ih (List.cons_ne_nil g files)).prepend _
    | nil =>
      have hblock : ∀ s : String × List (List Char), [s].flatMap Outline.block = heading s.1 :: s.2 :=
        fun s => List.append_nil _
      rw [List.map_singleton, hblock, sections, hblock]
      cases hshown : shown f with
      | nil =>
        refine ⟨[], heading f.relative, gap f, by simp [full, hshown],
          heading_not_white f.relative, white_gap f, ?_⟩
        rw [trimEnd_heading]
        rfl
      | cons l ls =>
        have htrims := trimsTo_trimLast (hshown ▸ List.cons_ne_nil l ls)
          (countedFrom_shown f).not_white (white_gap f)
        rw [← hshown]
        exact htrims.prepend [heading f.relative]

theorem trimsTo_outline (b : Batch) :
    TrimsTo (preamble b ++ [] :: (b.files.map full).flatMap Outline.block) (outline b).lines := by
  by_cases hfiles : b.files = []
  · -- without files, the request ends with the title of their list
    have hlast : preamble b =
        ((opening b.group).dropLast.map String.toList) ++ ["Files you may reference:".toList] := by
      rw [preamble, hfiles]
      rfl
    have hwhite : ¬White "Files you may reference:".toList := by
      rw [String.toList_ofList]
      exact fun h => absurd (h 'F' (by simp)) (by decide)
    have htrim : trimEnd "Files you may reference:".toList = "Files you may reference:".toList := by
      rw [String.toList_ofList]
      decide
    refine ⟨(opening b.group).dropLast.map String.toList, "Files you may reference:".toList, [[]],
      ?_, hwhite, by simp [White], ?_⟩
    · rw [hlast, hfiles, List.append_assoc]
      rfl
    · rw [htrim, ← hlast, outline, hfiles, Outline.lines]
      simp [sections]
  · have hlines : (outline b).lines =
        (preamble b ++ [[]]) ++ (sections b.files).flatMap Outline.block := by
      rw [Outline.lines, outline, if_neg (by simpa using hfiles)]
    rw [hlines, List.append_cons]
    exact (trimsTo_sections hfiles).prepend _

theorem splitFeeds_request {b : Batch} (h : ∀ p ∈ b.paths, '\n' ∉ p.toList) :
    splitFeeds (Request.ofBatch b none).prompt.toList = (outline b).lines := by
  have hparts := splitFeeds_parts h
  have hstart : Stops isBlank
      (String.intercalate "\n" (analysisParts (Request.subject b none))).toList := by
    obtain ⟨l, ls, e, hl⟩ := preamble_eq_cons b
    have hstack := stack_splitFeeds
      (String.intercalate "\n" (analysisParts (Request.subject b none))).toList
    rw [hparts, e, List.cons_append, stack_cons] at hstack
    obtain ⟨l, rfl⟩ := List.head?_eq_some_iff.1 hl
    rw [← (List.cons.inj hstack).2]
    exact stops_cons (by decide)
  rw [Request.ofBatch, analysisText, strip, String.toList_ofList, trim, trimStart_of_stops hstart]
  exact splitFeeds_trimEnd (hparts ▸ trimsTo_outline b)

/-! ## What a request shows -/

theorem keys_sections (files : List Source) :
    (sections files).map (·.1) = files.map (·.relative) := by
  induction files with
  | nil => rfl
  | cons f files ih =>
    cases files with
    | nil => rfl
    | cons g files => exact congrArg (f.relative :: ·) ih

theorem exists_mem_sections {files : List Source} (hpaths : (files.map (·.relative)).Nodup)
    {f : Source} (hf : f ∈ files) : ∃ body, (f.relative, body) ∈ sections files ∧
      ∃ ls w, body = ls ++ w ∧ (∀ k ∈ w, White k) ∧
        ls = if files.getLast? = some f then trimLast (shown f) else shown f := by
  induction files with
  | nil => cases hf
  | cons g files ih =>
    cases files with
    | nil =>
      obtain rfl := List.mem_singleton.1 hf
      exact ⟨_, List.mem_singleton_self _, _, [], (List.append_nil _).symm, by simp, by simp⟩
    | cons g' files =>
      rw [List.map_cons, List.nodup_cons] at hpaths
      rcases List.mem_cons.1 hf with rfl | hf
      · have hlast : (f :: g' :: files).getLast? ≠ some f := by
          rw [List.getLast?_cons_cons]
          exact fun h => hpaths.1 (List.mem_map_of_mem (List.mem_of_getLast? h))
        exact ⟨_, List.mem_cons_self, shown f, gap f, rfl, white_gap f, by rw [if_neg hlast]⟩
      · obtain ⟨body, hbody, hshape⟩ := ih hpaths.2 hf
        exact ⟨body, List.mem_cons_of_mem _ hbody, by rwa [List.getLast?_cons_cons]⟩

theorem length_trimLast (ls : List (List Char)) : (trimLast ls).length = ls.length := by
  induction ls with
  | nil => rfl
  | cons l ls ih =>
    cases ls with
    | nil => rfl
    | cons k ls => exact congrArg (· + 1) ih

theorem plain_of_white {ls : List (List Char)} (h : ∀ l ∈ ls, White l) : Plain ls := by
  intro l hl
  refine headingPath?_eq_none fun hhead => ?_
  exact absurd (h l hl '=' (List.mem_of_head? hhead)) (by decide)

theorem Plain.append {ls ls' : List (List Char)} (h : Plain ls) (h' : Plain ls') :
    Plain (ls ++ ls') := fun l hl => (List.mem_append.1 hl).elim (h l) (h' l)

theorem plain_sections (files : List Source) : ∀ s ∈ sections files, Plain s.2 := by
  induction files with
  | nil => simp [sections]
  | cons f files ih =>
    cases files with
    | nil => exact List.forall_mem_singleton.2 (countedFrom_shown f).trimLast.plain
    | cons g files =>
      exact List.forall_mem_cons.2
        ⟨(countedFrom_shown f).plain.append (plain_of_white (white_gap f)), ih⟩

/-- A request has the outline that its batch fixes. -/
theorem ofText_request {b : Batch} (h : ∀ p ∈ b.paths, '\n' ∉ p.toList) :
    Outline.ofText (Request.ofBatch b none).prompt = outline b := by
  rw [Outline.ofText, splitFeeds_request h]
  refine Outline.ofLines_lines ((plain_preamble b).append (plain_of_white ?_))
    (plain_sections b.files)
  split <;> simp [White]

theorem manifest_outline (b : Batch) :
    (outline b).manifest = b.files.map fun f => (manifestLine f).toList := by
  have hopening : ((opening b.group).map String.toList).filter (·.head? = some '-') = [] := by
    rw [List.filter_eq_nil_iff]
    intro l hl
    obtain ⟨p, hp, rfl⟩ := List.mem_map.1 hl
    simpa using (head?_opening b.group p hp).2
  have hfiles : (b.files.map fun f => (manifestLine f).toList).filter (·.head? = some '-') =
      b.files.map fun f => (manifestLine f).toList := by
    rw [List.filter_eq_self]
    intro l hl
    obtain ⟨f, -, rfl⟩ := List.mem_map.1 hl
    simpa using head?_manifestLine f
  have hgap : (if b.files.isEmpty then [] else [([] : List Char)]).filter (·.head? = some '-') =
      [] := by
    split <;> rfl
  rw [Outline.manifest, outline, preamble, List.map_append, List.map_map, List.filter_append,
    List.filter_append, hopening, hgap, List.nil_append, List.append_nil]
  exact hfiles

/-- The request shows the files of the batch, all of their lines and nothing else. -/
structure Faithful (b : Batch) (request : String) : Prop where
  /-- The headings are the paths of the batch, in its order. -/
  headings : (splitFeeds request.toList).filterMap headingPath? = b.paths
  /-- The list of files says how many lines each of them has. -/
  manifest : (Outline.ofText request).manifest = b.files.map fun f =>
    s!"- {f.relative} ({Number.natText (splitLines f.text.toList).length} lines)".toList
  /-- The section of a file shows its lines, the end of the request being trimmed, and its numbers
  are those that pass for lines of the file. -/
  listed : ∀ f ∈ b.files, ∃ body,
    Assoc.get? (Outline.ofText request).sections f.relative = some body ∧
    visible body = (if b.files.getLast? = some f then trimLast (shown f) else shown f) ∧
    ∀ k : Int, spanWithin k k f.lineCount = true ↔ ∃ l ∈ body, Numbered k l

theorem faithful_request {b : Batch} (hpaths : b.paths.Nodup)
    (hfeeds : ∀ p ∈ b.paths, '\n' ∉ p.toList) : Faithful b (Request.ofBatch b none).prompt where
  headings := by
    rw [Outline.filterMap_headingPath?]
    exact (congrArg (·.sections.map (·.1)) (ofText_request hfeeds)).trans (keys_sections b.files)
  manifest := by
    rw [ofText_request hfeeds, manifest_outline]
    rfl
  listed := by
    intro f hf
    obtain ⟨body, hbody, ls, w, rfl, hw, hls⟩ := exists_mem_sections hpaths hf
    have hcounted : CountedFrom 1 ls := by
      rw [hls]
      split
      · exact (countedFrom_shown f).trimLast
      · exact countedFrom_shown f
    have hlength : ls.length = f.lineCount := by
      rw [hls, ← length_shown f]
      split
      · exact length_trimLast (shown f)
      · rfl
    refine ⟨ls ++ w, ?_, ?_, fun k => ?_⟩
    · rw [ofText_request hfeeds, Assoc.get?_eq_some_iff]
      · exact hbody
      · rw [outline, keys_sections]
        exact hpaths
    · rw [visible_append_white hcounted.not_white hw, hls]
    · have hwhite : ¬∃ l ∈ w, Numbered k l := fun ⟨l, hl, hk⟩ => hk.not_white (hw l hl)
      calc spanWithin k k f.lineCount = true
        _ ↔ (1 : Nat) ≤ k ∧ k < (1 : Nat) + ls.length := by
          simp only [spanWithin, Bool.and_eq_true, decide_eq_true_eq, hlength]
          omega
        _ ↔ ∃ l ∈ ls, Numbered k l := (hcounted.numbered_iff k).symm
        _ ↔ ∃ l ∈ ls ++ w, Numbered k l := by
          simp only [List.mem_append, or_and_right, exists_or, hwhite, or_false]

/-- The request that the bundled templates give for a batch shows its files faithfully. -/
theorem make?_faithful (b : Batch) (hpaths : b.paths.Nodup)
    (hfeeds : ∀ p ∈ b.paths, '\n' ∉ p.toList) :
    ∃ r, Request.make? .bundled b none = .ok r ∧ Faithful b r.prompt :=
  ⟨_, Request.make?_bundled b none, faithful_request hpaths hfeeds⟩

namespace Sample

/-- A file that begins like a heading and goes on like a listing; a form feed ends its second
line. -/
def forger : Source :=
  ⟨"/p/a.js", "a.js", 26, ".js", some .javascript, 0, ⟨"=== b.js ===\n1: x\x0C \t", none⟩⟩

def idle : Source := ⟨"/p/b.js", "b.js", 0, ".js", some .javascript, 1, ⟨"", none⟩⟩

def forgery : Batch := ⟨.javascript, [idle, forger]⟩

end Sample

theorem make?_faithful_forgery :
    Sample.forgery.paths.Nodup ∧ (∀ p ∈ Sample.forgery.paths, '\n' ∉ p.toList) ∧
      ∃ r, Request.make? .bundled Sample.forgery none = .ok r ∧ Faithful Sample.forgery r.prompt :=
  ⟨by decide, by decide, make?_faithful Sample.forgery (by decide) (by decide)⟩

example : (outline Sample.forgery).sections = [
    ("b.js", [[], []]),
    ("a.js", ["1: === b.js ===".toList, "2: 1: x".toList, "3:".toList])] := by
  decide +kernel

end PerfReview.Prompt
