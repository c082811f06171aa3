import Mathlib.Data.List.Infix
import PerfReview.Proofs.Response.Classification
import PerfReview.Proofs.Response.Readable

/-!
# Issues as records

`Style.text` writes issues as records with a blank line between them. Of an issue that is
`Writable`, the first line of the record is a header line that cites it, and no other line of the
record is one.
-/

namespace PerfReview.Response

open Text Number

/-! ## Writing -/

/-- How issues are written: the spelling of each marker, and what follows an opening fence. -/
structure Style where
  mark : Severity → String
  info : String
  marks : ∀ v, Marks v (mark v).toList
  oneLine : '\n' ∉ info.toList ∧ '\r' ∉ info.toList

namespace Style

variable (st : Style)

def field (label value : String) : String := label ++ ": " ++ value

def fence : String := String.ofList Body.fence

def record (i : Issue) : String :=
  String.intercalate "\n" [
    st.mark i.severity ++ " " ++ i.location, field "Description" i.description,
    field "Impact" i.impact, "Code Context:", fence ++ st.info, i.codeContext, fence,
    field "Solution" i.solution, field "Expected Improvement" i.expectedImprovement]

/-- Issues as records with a blank line between them. -/
def text (is : List Issue) : String := String.intercalate "\n\n" (is.map st.record)

end Style

/-- A trimmed text of one line. -/
@[mk_iff]
structure OneLine (s : String) : Prop where
  stripped : strip s = s
  feedless : '\n' ∉ s.toList
  plain : '\r' ∉ s.toList

/-- A trimmed text of lines that are no header lines. -/
@[mk_iff]
structure Paragraph (s : String) : Prop where
  stripped : strip s = s
  headless : Headless (splitFeeds s.toList)
  plain : '\r' ∉ s.toList

/-- The issue is about lines of one of the files, and its fields cannot be taken for the frame of a
record. -/
@[mk_iff]
structure Writable (files : List Source) (i : Issue) : Prop where
  cites : ∃ f ∈ files, f.relative = i.file ∧ 1 ≤ i.startLine ∧ i.startLine ≤ i.endLine ∧
    i.endLine ≤ f.lineCount
  /-- A longer number can be neither written nor read. -/
  short : i.endLine.natAbs < 10 ^ maxDigits
  file : OneLine i.file
  named : i.file ≠ ""
  plainFile : normalizeCitation i.file = i.file
  description : OneLine i.description
  impact : OneLine i.impact
  code : Paragraph i.codeContext
  fenceless : ¬ Body.fence <:+: i.codeContext.toList
  solution : Paragraph i.solution
  unlabelled : ∀ l ∈ splitFeeds i.solution.toList, ¬ "Expected Improvement:".toList <+: trimStart l
  expected : OneLine i.expectedImprovement

instance (ls : List Line) : Decidable (Headless ls) :=
  decidable_of_iff (∀ l ∈ ls, Header.ofLine? l = none)
    (forall₂_congr fun _ _ => Header.ofLine?_eq_none_iff)

instance (s : String) : Decidable (OneLine s) := decidable_of_iff' _ (oneLine_iff s)

instance (s : String) : Decidable (Paragraph s) := decidable_of_iff' _ (paragraph_iff s)

instance (files : List Source) (i : Issue) : Decidable (Writable files i) :=
  decidable_of_iff' _ (writable_iff files i)

/-! ## Fields -/

theorem toList_field (label value : String) :
    (Style.field label value).toList = label.toList ++ [':'] ++ (' ' :: value.toList) := by
  have hcolon : ": ".toList = [':', ' '] := rfl
  rw [Style.field, String.toList_append, String.toList_append, hcolon, List.append_assoc,
    List.append_assoc]
  rfl

theorem afterLabel?_field {label : String} (h : IsLabel label) (value : String) :
    Body.afterLabel? label (Style.field label value).toList = some (' ' :: value.toList) := by
  rw [toList_field]
  exact (afterLabel?_eq_some_iff h).2 ⟨[], fun _ hc => absurd hc List.not_mem_nil, rfl⟩

theorem splitFeeds_field {label : String} (h : IsLabel label) (value : String) :
    ∃ l ls, splitFeeds value.toList = l :: ls ∧
      splitFeeds (Style.field label value).toList = (label.toList ++ [':'] ++ ' ' :: l) :: ls := by
  obtain ⟨l, ls, e⟩ := List.exists_cons_of_ne_nil (splitOn_ne_nil '\n' value.toList)
  have hspace : splitFeeds (' ' :: value.toList) = (' ' :: l) :: ls := by
    rw [splitFeeds_cons, if_neg (by decide), splitFeeds, e]
    rfl
  refine ⟨l, ls, e, ?_⟩
  rw [toList_field]
  exact splitFeeds_append (by simp [h.1]) hspace

theorem splitFeeds_field_of_feedless {label value : String} (h : IsLabel label)
    (hv : '\n' ∉ value.toList) :
    splitFeeds (Style.field label value).toList = [(Style.field label value).toList] := by
  refine splitFeeds_eq_singleton ?_
  rw [toList_field]
  simp [h.1, hv]

section
variable {files : List Source} {i : Issue}

/-! ## The header line -/

def headerOf (i : Issue) : Header :=
  ⟨i.severity, i.file.toList, Nat.toDigits 10 i.startLine.natAbs, Nat.toDigits 10 i.endLine.natAbs⟩

theorem digits_toDigits (n : Nat) : Digits (Nat.toDigits 10 n) :=
  ⟨Nat.toDigits_ne_nil, fun _ => isDigit_of_mem_toDigits⟩

theorem toList_location (hs : 0 ≤ i.startLine) (he : 0 ≤ i.endLine) : i.location.toList =
    i.file.toList ++ ':' :: ((headerOf i).first ++ '-' :: (headerOf i).last) := by
  have hlocation : i.location = i.file ++ ":" ++ intText i.startLine ++ "-" ++ intText i.endLine :=
    rfl
  simp only [hlocation, String.toList_append, toList_intText hs, toList_intText he]
  simp [headerOf]

theorem OneLine.tight {s : String} (h : OneLine s) (hne : s ≠ "") : Tight s.toList := by
  have htrim : trim s.toList = s.toList := by
    rw [← String.toList_ofList (l := trim s.toList)]
    exact congrArg String.toList h.stripped
  obtain ⟨hfirst, hlast⟩ := stops_of_trim_eq_self htrim
  have hcons : s.toList ≠ [] := mt String.toList_eq_nil_iff.1 hne
  have hhead := List.head?_eq_some_head hcons
  have hgetLast := List.getLast?_eq_some_getLast hcons
  refine ⟨⟨_, hhead, hfirst _ hhead⟩, _, hgetLast, hlast _ ?_⟩
  rw [List.head?_reverse, hgetLast]

theorem Writable.fits (h : Writable files i) (st : Style) :
    (headerOf i).Fits (st.mark i.severity ++ " " ++ i.location).toList := by
  obtain ⟨f, -, -, hstart, hle, -⟩ := h.cites
  have hnil : Gaps [] := fun _ hc => absurd hc List.not_mem_nil
  have hspan : SpanForm (headerOf i).first (headerOf i).last
      ((headerOf i).first ++ '-' :: (headerOf i).last) :=
    ⟨digits_toDigits _, digits_toDigits _, [], [], [], [], hnil, hnil, hnil, hnil, by simp⟩
  have hcited : CitationForm (headerOf i).path (headerOf i).first (headerOf i).last
      i.location.toList := by
    refine ⟨h.file.tight h.named, [], _, hnil, hspan, ?_⟩
    rw [toList_location (by omega) (by omega), List.append_nil]
    rfl
  refine ⟨[], (st.mark i.severity).toList, [' '], i.location.toList, .indent hnil, st.marks _, ?_,
    by decide, hcited, ?_⟩
  · exact List.forall_mem_singleton.2 rfl
  · rw [String.toList_append, String.toList_append]
    rfl

theorem Marks.notMem {v : Severity} {m : List Char} (h : Marks v m) {c : Char}
    (hc : c = '\n' ∨ c = '\r') : c ∉ m := by
  rcases hc with rfl | rfl
  all_goals cases h
  all_goals decide

theorem Writable.notMem_headerLine (h : Writable files i) (st : Style) {c : Char}
    (hc : c = '\n' ∨ c = '\r') : c ∉ (st.mark i.severity ++ " " ++ i.location).toList := by
  obtain ⟨f, -, -, hstart, hle, -⟩ := h.cites
  have hmark : c ∉ (st.mark i.severity).toList := (st.marks i.severity).notMem hc
  have hfile : c ∉ i.file.toList := by
    rcases hc with rfl | rfl
    · exact h.file.feedless
    · exact h.file.plain
  have hdigits : ∀ n : Nat, c ∉ Nat.toDigits 10 n := by
    intro n hm
    have hd := isDigit_of_mem_toDigits hm
    rcases hc with rfl | rfl
    all_goals exact absurd hd (by decide)
  have hspace : c ∉ [' ', ':', '-'] := by
    rcases hc with rfl | rfl
    all_goals decide
  rw [String.toList_append, String.toList_append, toList_location (by omega) (by omega)]
  simp only [List.mem_cons, List.not_mem_nil, or_false, not_or] at hspace
  simp [hmark, hfile, headerOf, hdigits, hspace]

/-! ## The lines below -/

/-- The lines from the one with the solution on. -/
def endingOf (i : Issue) : List Line :=
  splitFeeds (Style.field "Solution" i.solution).toList ++
    [(Style.field "Expected Improvement" i.expectedImprovement).toList]

/-- The lines from the code label on. -/
def Style.codeOf (st : Style) (i : Issue) : List Line :=
  "Code Context:".toList :: (Style.fence ++ st.info).toList ::
    (splitFeeds i.codeContext.toList ++ Body.fence :: endingOf i)

/-- The lines below a header line. -/
def Style.below (st : Style) (i : Issue) : List Line :=
  (Style.field "Description" i.description).toList :: (Style.field "Impact" i.impact).toList ::
    st.codeOf i

/-- A line that begins with none of the characters of a header line is none. -/
theorem not_fits_cons {c : Char} {s : Line} (hgap : isGap c = false) (hb : c ≠ '-' ∧ c ≠ '*')
    (hd : isDigit c = false) (hm : Header.marker? (c :: s) = none) (hdr : Header) :
    ¬ hdr.Fits (c :: s) := by
  refine Header.ofLine?_eq_none_iff.1 ?_ hdr
  rw [Header.ofLine?, List.dropWhile_cons_of_neg (by simp [hgap]), afterBullet?_eq_none hb hd]
  simp only [Option.getD_none, hm, Option.bind_eq_bind, Option.bind_none]

theorem Writable.headless_endingOf (h : Writable files i) : Headless (endingOf i) := by
  obtain ⟨l, ls, e, hfield⟩ := splitFeeds_field isLabel_solution i.solution
  have hls : Headless ls := fun k hk =>
    h.solution.headless k (by rw [e]; exact List.mem_cons_of_mem l hk)
  rw [endingOf, hfield, toList_field]
  refine headless_cons ?_ (headless_append hls (headless_cons ?_ headless_nil))
  all_goals exact not_fits_cons (by decide) (by decide) (by decide) rfl

theorem Writable.headless_below (h : Writable files i) (st : Style) : Headless (st.below i) := by
  have hfence : ∀ hdr : Header, ¬ hdr.Fits Body.fence :=
    not_fits_cons (by decide) (by decide) (by decide) rfl
  have hopening : ∀ hdr : Header, ¬ hdr.Fits (Style.fence ++ st.info).toList := by
    rw [String.toList_append, Style.fence, String.toList_ofList]
    exact not_fits_cons (by decide) (by decide) (by decide) rfl
  rw [Style.below, Style.codeOf, toList_field, toList_field]
  refine headless_cons ?_ (headless_cons ?_ (headless_cons ?_ (headless_cons hopening
    (headless_append h.code.headless (headless_cons hfence h.headless_endingOf)))))
  all_goals exact not_fits_cons (by decide) (by decide) (by decide) rfl

theorem Writable.splitFeeds_record (h : Writable files i) (st : Style) :
    splitFeeds (st.record i).toList =
      (st.mark i.severity ++ " " ++ i.location).toList :: st.below i := by
  have hheader := h.notMem_headerLine st (.inl rfl)
  have hlabel : '\n' ∉ "Code Context:".toList := by decide
  have hfence : Style.fence.toList = Body.fence := String.toList_ofList
  have hopening : '\n' ∉ (Style.fence ++ st.info).toList := by
    rw [String.toList_append, hfence, List.mem_append, not_or]
    exact ⟨by decide, st.oneLine.1⟩
  rw [Style.record, splitFeeds_intercalate (List.cons_ne_nil _ _)]
  simp only [List.flatMap_cons, List.flatMap_nil, splitFeeds_eq_singleton hheader,
    splitFeeds_field_of_feedless isLabel_description h.description.feedless,
    splitFeeds_field_of_feedless isLabel_impact h.impact.feedless,
    splitFeeds_eq_singleton hlabel, splitFeeds_eq_singleton hopening, hfence,
    splitFeeds_eq_singleton (show '\n' ∉ Body.fence by decide),
    splitFeeds_field_of_feedless isLabel_expected h.expected.feedless, List.append_nil]
  rfl

theorem Writable.notMem_record (h : Writable files i) (st : Style) :
    '\r' ∉ (st.record i).toList := by
  have hfield : ∀ {label value : String}, '\r' ∉ label.toList → '\r' ∉ value.toList →
      '\r' ∉ (Style.field label value).toList := by
    intro label value hl hv
    rw [toList_field]
    simp [hl, hv]
  intro hm
  rcases mem_intercalate hm with hm | ⟨p, hp, hm⟩
  · exact absurd hm (by decide)
  simp only [List.mem_cons, List.not_mem_nil, or_false] at hp
  rcases hp with rfl | rfl | rfl | rfl | rfl | rfl | rfl | rfl | rfl
  · exact h.notMem_headerLine st (.inr rfl) hm
  · exact hfield (by decide) h.description.plain hm
  · exact hfield (by decide) h.impact.plain hm
  · exact absurd hm (by decide)
  · rw [String.toList_append, List.mem_append] at hm
    rcases hm with hm | hm
    · exact absurd hm (by decide)
    · exact st.oneLine.2 hm
  · exact h.code.plain hm
  · exact absurd hm (by decide)
  · exact hfield (by decide) h.solution.plain hm
  · exact hfield (by decide) h.expected.plain hm

theorem notMem_text (st : Style) {is : List Issue} (h : ∀ i ∈ is, Writable files i) :
    '\r' ∉ (st.text is).toList := by
  intro hm
  rcases mem_intercalate hm with hm | ⟨p, hp, hm⟩
  · exact absurd hm (by decide)
  · obtain ⟨i, hi, rfl⟩ := List.mem_map.1 hp
    exact (h i hi).notMem_record st hm

end

end PerfReview.Response
