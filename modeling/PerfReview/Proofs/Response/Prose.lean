import PerfReview.Proofs.Response.Extension
import PerfReview.Proofs.Response.Joining
import PerfReview.Proofs.Response.Writing

/-!
# Answers with text around them

Text without header lines that stands before an answer belongs to no record. Text that follows an
answer lengthens its last record, of which it changes nothing, unless it reopens the code block of
an issue: the code, the solution and the expected improvement then end in that text.
-/

namespace PerfReview.Response

open Text

/-- No line of the text is a header line. -/
def Prose (p : String) : Prop := Headless (splitFeeds (foldReturns p.toList))

/-- The last record of an answer has all its fields, if there is one. -/
def Complete (t : String) : Prop :=
  ∀ r, (records t).getLast? = some r → ∃ b : Body, b.Reads (stack r.lines)

/-- The last record of an answer gives an issue, and a text that follows the answer reopens the code
block of that record. -/
def Captured (ix : Index) (t p : String) : Prop :=
  (read ix t).fault = none ∧ (∃ i, (read ix t).verdicts.getLast? = some (.issue i)) ∧
    ∃ r, (records t).getLast? = some r ∧ Reopened r.lines (splitFeeds (foldReturns p.toList))

def Record.lengthen (r : Record) (further : List Line) : Record := ⟨r.header, r.lines ++ further⟩

/-! ## Records -/

theorem Passages.feedless {ls : List Line} {rs : List Record} (h : Passages ls rs)
    (hls : Feedless ls) : ∀ r ∈ rs, Feedless r.lines := by
  induction h with
  | nil => exact fun r hr => absurd hr List.not_mem_nil
  | @cons line r rest rs hfits hbelow hrest ih =>
    refine List.forall_mem_cons.2 ⟨fun l hl => hls l (by simp [hl]), ?_⟩
    exact ih (hls.of_suffix ⟨line :: r.lines, by simp⟩)

theorem feedless_lines {t : String} {r : Record} (h : r ∈ records t) : Feedless r.lines := by
  obtain ⟨rest, hls, -, hrest⟩ := Outline.passages (splitFeeds (foldReturns t.toList))
  have hfeed := (feedless_splitFeeds (foldReturns t.toList)).of_suffix ⟨_, hls.symm⟩
  exact hrest.feedless hfeed r h

/-- Lines without header lines lengthen the last record of the lines before them. -/
theorem Outline.ofLines_further {further : List Line} (h : Headless further) (ls : List Line) :
    ((ofLines ls).records = [] ∧
      ofLines (ls ++ further) = ⟨(ofLines ls).preamble ++ further, []⟩) ∨
    ∃ rs r, (ofLines ls).records = rs ++ [r] ∧
      ofLines (ls ++ further) = ⟨(ofLines ls).preamble, rs ++ [r.lengthen further]⟩ := by
  induction ls with
  | nil =>
    have hall := ofLines_append h []
    rw [List.append_nil] at hall
    exact .inl ⟨rfl, hall.trans (by rw [ofLines, List.foldr_nil, List.append_nil, List.nil_append])⟩
  | cons l ls ih =>
    have step : ofLines (l :: ls) = (ofLines ls).push l := rfl
    have step' : ofLines (l :: ls ++ further) = (ofLines (ls ++ further)).push l := rfl
    rw [step, step', push, push]
    cases Header.ofLine? l with
    | some hd =>
      rcases ih with ⟨hrecords, hfurther⟩ | ⟨rs, r, hrecords, hfurther⟩
      · refine .inr ⟨[], ⟨hd, (ofLines ls).preamble⟩, ?_, ?_⟩
        · simp only [hrecords, List.nil_append]
        · simp only [hfurther, Record.lengthen, List.nil_append]
      · refine .inr ⟨⟨hd, (ofLines ls).preamble⟩ :: rs, r, ?_, ?_⟩
        · simp only [hrecords, List.cons_append]
        · simp only [hfurther, List.cons_append]
    | none =>
      rcases ih with ⟨hrecords, hfurther⟩ | ⟨rs, r, hrecords, hfurther⟩
      · exact .inl ⟨hrecords, by simp only [hfurther, List.cons_append]⟩
      · exact .inr ⟨rs, r, hrecords, by simp only [hfurther]⟩

theorem records_append_prose {t p : String} (hend : t.toList.getLast? ≠ some '\r')
    (hp : Prose p) : (records t = [] ∧ records (t ++ "\n" ++ p) = []) ∨
      ∃ rs r, records t = rs ++ [r] ∧ records (t ++ "\n" ++ p) =
        rs ++ [r.lengthen (splitFeeds (foldReturns p.toList))] := by
  simp only [records]
  rw [lines_append_feed hend]
  rcases Outline.ofLines_further hp (splitFeeds (foldReturns t.toList)) with
    ⟨hrecords, hfurther⟩ | ⟨rs, r, hrecords, hfurther⟩
  · exact .inl ⟨hrecords, by rw [hfurther]⟩
  · exact .inr ⟨rs, r, hrecords, by rw [hfurther]⟩

theorem records_prose_append {p : String} (hend : p.toList.getLast? ≠ some '\r') (hp : Prose p)
    (t : String) : records (p ++ "\n" ++ t) = records t := by
  simp only [records]
  rw [lines_append_feed hend, Outline.ofLines_append hp]

/-! ## Verdicts -/

theorem text_append_ne_empty {c : Line} (hc : Closes c) (s : List Char) :
    Record.text (c ++ s) ≠ "" := by
  obtain ⟨g, g', hg, -, rfl⟩ := hc
  have hblank : ∀ d ∈ g, isBlank d = true := fun d hd => isBlank_of_isGap (hg d hd)
  have htick : isBlank '\x60' = false := by decide
  have hstart : trimStart (g ++ (Body.fence ++ g') ++ s) =
      [] ++ '\x60' :: ('\x60' :: '\x60' :: (g' ++ s)) := by
    rw [List.append_assoc, List.append_assoc, trimStart]
    exact dropWhile_append_of_stops hblank (stops_cons htick)
  rw [Record.text, trim, hstart, trimEnd_append_cons htick, ne_eq, String.ofList_eq_empty_iff]
  exact List.cons_ne_nil _ _

section
variable (ix : Index) {r : Record} {further : List Line} {b : Body}

theorem Record.judge_lengthen_of_not_reopened (hr : Feedless r.lines) (hfurther : Feedless further)
    (hb : Body.ofLines? r.lines = some b) (h : ¬ Reopened r.lines further) :
    (r.lengthen further).judge ix = r.judge ix := by
  have hsame := Body.ofLines?_of_not_reopened hr hfurther hb h
  simp only [Record.judge, Record.verdict, Record.lengthen, hsame, hb]

/-- What a record gives whose code block is reopened: the same rejection as before, or an issue
with other code, another solution and another expected improvement. -/
theorem Record.verdict_lengthen_of_reopened (hr : Feedless r.lines) (hfurther : Feedless further)
    (hb : Body.ofLines? r.lines = some b) (h : Reopened r.lines further) (first last : Nat) :
    ((r.verdict ix first last).issue? = none ∧
      (r.lengthen further).verdict ix first last = r.verdict ix first last) ∨
    ∃ i code solution expected, r.verdict ix first last = .issue i ∧ i.codeContext = "" ∧
      code ≠ "" ∧ (r.lengthen further).verdict ix first last = .issue { i with
        codeContext := code, solution := solution, expectedImprovement := expected } := by
  obtain ⟨hcode, c, code, solution, expected, hc, hother⟩ :=
    Body.ofLines?_of_reopened hr hfurther hb h
  have hempty : Record.text b.code = "" := by rw [hcode]; rfl
  have hfilled := text_append_ne_empty hc (stack code)
  unfold Record.verdict
  simp only [Record.lengthen, hother, hb]
  cases ix.resolve (String.ofList r.header.path) with
  | none => exact .inl ⟨rfl, rfl⟩
  | some f =>
    by_cases hspan : spanWithin first last f.lineCount = true
    · simp only [hspan, if_true]
      exact .inr ⟨_, _, _, _, rfl, hempty, hfilled, rfl⟩
    · simp only [hspan]
      exact .inl ⟨rfl, rfl⟩

theorem Record.judge_lengthen_of_reopened (hr : Feedless r.lines) (hfurther : Feedless further)
    (hb : Body.ofLines? r.lines = some b) (h : Reopened r.lines further) :
    ((∀ i, r.judge ix ≠ .ok (.issue i)) ∧ (r.lengthen further).judge ix = r.judge ix) ∨
    ∃ i code solution expected, r.judge ix = .ok (.issue i) ∧ i.codeContext = "" ∧ code ≠ "" ∧
      (r.lengthen further).judge ix = .ok (.issue { i with
        codeContext := code, solution := solution, expectedImprovement := expected }) := by
  have hheader : (r.lengthen further).header = r.header := rfl
  simp only [Record.judge, hheader]
  cases Number.readDigits r.header.first with
  | error f => exact .inl ⟨fun _ => nofun, rfl⟩
  | ok first =>
    cases Number.readDigits r.header.last with
    | error f => exact .inl ⟨fun _ => nofun, rfl⟩
    | ok last =>
      rcases Record.verdict_lengthen_of_reopened ix hr hfurther hb h first last with
        ⟨hnone, hsame⟩ | ⟨i, code, solution, expected, hissue, hempty, hfilled, hother⟩
      · refine .inl ⟨fun i hi => ?_, congrArg Except.ok hsame⟩
        rw [Except.ok.inj hi] at hnone
        cases hnone
      · exact .inr ⟨i, code, solution, expected, congrArg Except.ok hissue, hempty, hfilled,
          congrArg Except.ok hother⟩

end

/-! ## Answers -/

theorem ofRecords_concat_congr {ix : Index} {r r' : Record} (h : r'.judge ix = r.judge ix)
    (rs : List Record) : ofRecords ix (rs ++ [r']) = ofRecords ix (rs ++ [r]) := by
  induction rs with
  | nil => simp only [List.nil_append, ofRecords, h]
  | cons s rs ih => rw [List.cons_append, List.cons_append, ofRecords, ofRecords, ih]

/-- Where the reading stops, the records after it count for nothing. -/
theorem ofRecords_append_of_fault {ix : Index} {rs : List Record}
    (h : (ofRecords ix rs).fault ≠ none) (rs' : List Record) :
    ofRecords ix (rs ++ rs') = ofRecords ix rs := by
  induction rs with
  | nil => exact absurd rfl h
  | cons r rs ih =>
    rw [ofRecords] at h ⊢
    rw [List.cons_append, ofRecords]
    cases hj : r.judge ix with
    | error f => rfl
    | ok v =>
      rw [hj] at h
      simp only [ih h]

theorem ofRecords_concat {ix : Index} {rs : List Record} {r : Record} {v : Verdict}
    (h : (ofRecords ix rs).fault = none) (hr : r.judge ix = .ok v) :
    ofRecords ix (rs ++ [r]) = ⟨(ofRecords ix rs).verdicts ++ [v], none⟩ := by
  rw [ofRecords_append h, ofRecords, hr]
  rfl

section
variable {ix : Index} {t p : String}

theorem Complete.exists_body {rs : List Record} {r : Record} (h : Complete t)
    (e : records t = rs ++ [r]) : ∃ b, Body.ofLines? r.lines = some b := by
  have hr : Feedless r.lines := feedless_lines (t := t) (by simp [e])
  obtain ⟨b, hreads⟩ := h r (by rw [e, List.getLast?_concat])
  exact Option.isSome_iff_exists.1 (Body.isSome_ofLines? hr hreads)

theorem read_append_of_not_captured (hend : t.toList.getLast? ≠ some '\r') (ht : Complete t)
    (hp : Prose p) (h : ¬ Captured ix t p) : read ix (t ++ "\n" ++ p) = read ix t := by
  rcases records_append_prose hend hp with ⟨e, e'⟩ | ⟨rs, r, e, e'⟩
  · rw [read, read, e, e']
  · have hr : Feedless r.lines := feedless_lines (t := t) (by simp [e])
    have hlines := feedless_splitFeeds (foldReturns p.toList)
    obtain ⟨b, hb⟩ := ht.exists_body e
    rw [read, read, e, e']
    by_cases hopen : Reopened r.lines (splitFeeds (foldReturns p.toList))
    · rcases Record.judge_lengthen_of_reopened ix hr hlines hb hopen with
        ⟨-, hsame⟩ | ⟨i, code, solution, expected, hissue, -⟩
      · exact ofRecords_concat_congr hsame rs
      · have hfault : (ofRecords ix rs).fault ≠ none := by
          intro hnone
          have hread : read ix t = ⟨(ofRecords ix rs).verdicts ++ [.issue i], none⟩ := by
            rw [read, e, ofRecords_concat hnone hissue]
          refine h ⟨by rw [hread], ⟨i, by rw [hread, List.getLast?_concat]⟩, r, ?_, hopen⟩
          rw [e, List.getLast?_concat]
        rw [ofRecords_append_of_fault hfault, ofRecords_append_of_fault hfault]
    · exact ofRecords_concat_congr
        (Record.judge_lengthen_of_not_reopened ix hr hlines hb hopen) rs

theorem read_append_of_captured (hend : t.toList.getLast? ≠ some '\r') (ht : Complete t)
    (hp : Prose p) (h : Captured ix t p) : ∃ vs i code solution expected,
      read ix t = ⟨vs ++ [.issue i], none⟩ ∧ i.codeContext = "" ∧ code ≠ "" ∧
        read ix (t ++ "\n" ++ p) = ⟨vs ++ [.issue { i with
          codeContext := code, solution := solution, expectedImprovement := expected }], none⟩ := by
  obtain ⟨hfault, ⟨i, hlast⟩, r, hr, hopen⟩ := h
  rcases records_append_prose hend hp with ⟨e, e'⟩ | ⟨rs, r', e, e'⟩
  · rw [e] at hr
    cases hr
  · obtain rfl : r' = r := by rwa [e, List.getLast?_concat, Option.some_inj] at hr
    have hfeedless : Feedless r'.lines := feedless_lines (t := t) (by simp [e])
    have hlines := feedless_splitFeeds (foldReturns p.toList)
    obtain ⟨b, hb⟩ := ht.exists_body e
    rw [read, e] at hfault hlast
    have hfront : (ofRecords ix rs).fault = none := by
      by_contra hstop
      rw [ofRecords_append_of_fault hstop] at hfault
      exact hstop hfault
    rcases Record.judge_lengthen_of_reopened ix hfeedless hlines hb hopen with
      ⟨hno, -⟩ | ⟨i', code, solution, expected, hissue, hempty, hfilled, hother⟩
    · -- the last verdict is the one on the last record
      cases hj : r'.judge ix with
      | error f =>
        rw [ofRecords_append hfront, ofRecords, hj] at hfault
        cases hfault
      | ok v =>
        rw [ofRecords_concat hfront hj, List.getLast?_concat, Option.some_inj] at hlast
        exact absurd (hlast ▸ hj) (hno i)
    · refine ⟨(ofRecords ix rs).verdicts, i', code, solution, expected, ?_, hempty, hfilled, ?_⟩
      · rw [read, e, ofRecords_concat hfront hissue]
      · rw [read, e', ofRecords_concat hfront hother]

end

/-- Text without header lines around an answer whose last record is complete. Before the answer it
changes nothing. After it, it changes nothing either, unless the code block of the last issue is
reopened: then it fills the code of that issue, which was empty, and replaces the two fields after
the code, while all else stays as it is. -/
theorem read_prose (ix : Index) {t p : String} (hend : t.toList.getLast? ≠ some '\r')
    (ht : Complete t) (hp : Prose p) :
    (¬ Captured ix t p → read ix (t ++ "\n" ++ p) = read ix t) ∧
      (Captured ix t p → ∃ vs i code solution expected,
        read ix t = ⟨vs ++ [.issue i], none⟩ ∧ i.codeContext = "" ∧ code ≠ "" ∧
          read ix (t ++ "\n" ++ p) = ⟨vs ++ [.issue { i with
            codeContext := code, solution := solution, expectedImprovement := expected }],
            none⟩) ∧
      (p.toList.getLast? ≠ some '\r' → read ix (p ++ "\n" ++ t) = read ix t) := by
  refine ⟨read_append_of_not_captured hend ht hp, read_append_of_captured hend ht hp, ?_⟩
  intro hpend
  rw [read, read, records_prose_append hpend hp]

instance (t : String) : Decidable (Complete t) :=
  decidable_of_iff (∀ r ∈ (records t).getLast?, (Body.ofLines? r.lines).isSome = true) <| by
    refine forall₂_congr fun r hr => ?_
    have hlines : Feedless r.lines := feedless_lines (List.mem_of_getLast? hr)
    rw [Option.isSome_iff_ne_none, ne_eq, Body.ofLines?_eq_none_iff hlines, not_not]

instance (p : String) : Decidable (Prose p) :=
  inferInstanceAs (Decidable (Headless (splitFeeds (foldReturns p.toList))))

/-- A record with these lines in its code block. -/
def recordOf (code : String) : String :=
  "🚨 a.js:1-1\nDescription: d\nImpact: i\nCode Context:\n\x60\x60\x60\n" ++ code ++
    "\x60\x60\x60\nSolution: s\nExpected Improvement: e"

/-- A text that looks like the end of a record. -/
def looseEnd : String := "\x60\x60\x60\nSolution: t\nExpected Improvement: f"

theorem read_prose_looseEnd : (recordOf "x\n").toList.getLast? ≠ some '\r' ∧
    Complete (recordOf "x\n") ∧ Prose looseEnd ∧ ¬ Captured oneFile (recordOf "x\n") looseEnd ∧
    looseEnd.toList.getLast? ≠ some '\r' ∧
    read oneFile (recordOf "x\n" ++ "\n" ++ looseEnd) = read oneFile (recordOf "x\n") ∧
    read oneFile (looseEnd ++ "\n" ++ recordOf "x\n") = read oneFile (recordOf "x\n") := by
  have hend : (recordOf "x\n").toList.getLast? ≠ some '\r' := by decide +kernel
  have ht : Complete (recordOf "x\n") := by decide +kernel
  have hp : Prose looseEnd := by decide +kernel
  have hpend : looseEnd.toList.getLast? ≠ some '\r' := by decide +kernel
  have hopen : ∀ r ∈ (records (recordOf "x\n")).getLast?, ∀ ls ∈ Body.belowFence? r.lines,
      ∀ c ∈ ls.head?, Body.isClosing c = false := by decide +kernel
  have hnot : ¬ Captured oneFile (recordOf "x\n") looseEnd := by
    rintro ⟨-, -, r, hr, c, below, hbelow, hc, -⟩
    have hfalse := hopen r hr _ hbelow c rfl
    rw [isClosing_iff.2 hc] at hfalse
    cases hfalse
  obtain ⟨hafter, -, hbefore⟩ := read_prose oneFile hend ht hp
  exact ⟨hend, ht, hp, hnot, hpend, hafter hnot, hbefore hpend⟩

/-- A block that closes at once is reopened by the fence below the record. -/
theorem not_ignored_looseEnd : (recordOf "").toList.getLast? ≠ some '\r' ∧
    Complete (recordOf "") ∧ Prose looseEnd ∧
    ((read oneFile (recordOf "")).issues.map fun i => (i.codeContext, i.solution)) = [("", "s")] ∧
    ((read oneFile (recordOf "" ++ "\n" ++ looseEnd)).issues.map fun i =>
        (i.codeContext, i.solution)) =
      [("\x60\x60\x60\nSolution: s\nExpected Improvement: e", "t")] := by
  decide +kernel

end PerfReview.Response
