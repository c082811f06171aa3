import PerfReview.Proofs.Response.Files
import PerfReview.Proofs.Response.Writing

/-!
# Issues written down and read back

The body below a written header line is read as the fields that were written, whatever follows the
record, and the index resolves the path in the header line. Records joined by blank lines are
therefore read back one by one.
-/

namespace PerfReview.Response

open Text Number

/-! ## Labels and fences -/

section
variable {label : String} {l rest c : Line} {before after code : List Line}
  {solution expected : List Char}

theorem atLabel?_cons (h : IsLabel label) (hl : Body.afterLabel? label l = some rest)
    (after : List Line) : Body.atLabel? label (l :: after) = some (rest, after) :=
  (atLabel?_eq_some_iff h).2
    ⟨[], l, rfl, fun _ hk => absurd hk List.not_mem_nil, (afterLabel?_eq_some_iff h).1 hl⟩

theorem upToLabel?_of_unlabelled (hbefore : ∀ k ∈ before, Body.afterLabel? label k = none)
    (hl : Body.afterLabel? label l = some rest) :
    Body.upToLabel? label (before ++ l :: after) = some (before, rest, after) := by
  induction before with
  | nil => rw [List.nil_append, Body.upToLabel?, hl]
  | cons k before ih =>
    obtain ⟨hk, hbefore⟩ := List.forall_mem_cons.1 hbefore
    rw [List.cons_append, Body.upToLabel?, hk]
    simp only [ih hbefore, Option.map_some]

theorem upToClosing?_of_open (hcode : ∀ k ∈ code, ¬ Closes k) (hc : Closes c)
    (hend : Body.ending? after = some (solution, expected)) :
    Body.upToClosing? (code ++ c :: after) = some (code, solution, expected) := by
  induction code with
  | nil =>
    rw [List.nil_append, Body.upToClosing?, if_pos (isClosing_iff.2 hc), hend]
  | cons k code ih =>
    obtain ⟨hk, hcode⟩ := List.forall_mem_cons.1 hcode
    rw [List.cons_append, Body.upToClosing?, if_neg (mt isClosing_iff.1 hk)]
    simp only [ih hcode, Option.map_some]

theorem fenced?_of_open (hne : code ≠ []) (hcode : ∀ k ∈ code, ¬ Closes k) (hc : Closes c)
    (hend : Body.ending? after = some (solution, expected)) :
    Body.fenced? (code ++ c :: after) = some (Body.joinLines code, solution, expected) := by
  obtain ⟨k, code, rfl⟩ := List.exists_cons_of_ne_nil hne
  have hclosing := upToClosing?_of_open (List.forall_mem_cons.1 hcode).2 hc hend
  rw [List.cons_append, Body.fenced?, hclosing]

end

/-! ## Bodies -/

section
variable {files : List Source} {i : Issue}

theorem Writable.ending?_endingOf (h : Writable files i) (more : List Line) :
    Body.ending? (endingOf i ++ more) =
      some (' ' :: i.solution.toList, ' ' :: i.expectedImprovement.toList) := by
  obtain ⟨l, ls, e, hfield⟩ := splitFeeds_field isLabel_solution i.solution
  have hlines : endingOf i ++ more = ("Solution".toList ++ [':'] ++ ' ' :: l) ::
      (ls ++ (Style.field "Expected Improvement" i.expectedImprovement).toList :: more) := by
    rw [endingOf, hfield, List.cons_append, List.cons_append, List.append_assoc ls]
    rfl
  have hunlabelled : ∀ k ∈ ls, Body.afterLabel? "Expected Improvement" k = none := by
    intro k hk
    refine Option.eq_none_iff_forall_ne_some.2 fun rest hrest => ?_
    exact h.unlabelled k (by rw [e]; exact List.mem_cons_of_mem l hk)
      ⟨rest, (dropHead?_eq_some_iff.1 hrest).symm⟩
  have hfirst : Body.afterLabel? "Solution" ("Solution".toList ++ [':'] ++ ' ' :: l) =
      some (' ' :: l) :=
    (afterLabel?_eq_some_iff isLabel_solution).2 ⟨[], fun _ hc => absurd hc List.not_mem_nil, rfl⟩
  have hjoin : Body.joinLines ((' ' :: l) :: ls) = ' ' :: i.solution.toList := by
    rw [joinLines_cons, List.cons_append, ← joinLines_cons, ← e, joinLines_splitFeeds]
  rw [hlines, Body.ending?]
  simp only [atLabel?_cons isLabel_solution hfirst, upToLabel?_of_unlabelled hunlabelled
    (afterLabel?_field isLabel_expected i.expectedImprovement), hjoin, Option.bind_eq_bind,
    Option.bind_some, Option.pure_def]

theorem Writable.not_closes (h : Writable files i) : ∀ k ∈ splitFeeds i.codeContext.toList,
    ¬ Closes k := by
  intro k hk hcloses
  obtain ⟨g, g', -, -, rfl⟩ := hcloses
  obtain ⟨before, after, e⟩ := List.append_of_mem hk
  refine h.fenceless ?_
  have hfence : Body.fence <:+: stack (splitFeeds i.codeContext.toList) := by
    rw [e, stack_append, stack_cons]
    exact ⟨stack before ++ '\n' :: g, g' ++ stack after, by simp⟩
  rw [stack_splitFeeds] at hfence
  exact (List.infix_cons_iff.1 hfence).resolve_left fun hp => by
    obtain ⟨t, ht⟩ := hp
    cases ht

theorem Writable.upToCode?_codeOf (h : Writable files i) (st : Style) (more : List Line) :
    Body.upToCode? (st.codeOf i ++ more) = some ([], i.codeContext.toList,
      ' ' :: i.solution.toList, ' ' :: i.expectedImprovement.toList) := by
  have hcloses : Closes Body.fence := ⟨[], [], by simp [Gaps], by simp [Gaps], rfl⟩
  have hcode : Body.fenced? (splitFeeds i.codeContext.toList ++
      Body.fence :: (endingOf i ++ more)) = some (i.codeContext.toList, ' ' :: i.solution.toList,
        ' ' :: i.expectedImprovement.toList) := by
    have hne : splitFeeds i.codeContext.toList ≠ [] := splitOn_ne_nil '\n' _
    rw [fenced?_of_open hne h.not_closes hcloses (h.ending?_endingOf more), joinLines_splitFeeds]
  have hopens : (Body.afterFence? (Style.fence ++ st.info).toList).isSome = true := by
    rw [String.toList_append, Style.fence, String.toList_ofList, Option.isSome_iff_exists]
    exact ⟨st.info.toList, afterFence?_eq_some_iff.2 ⟨[], by simp [Gaps], rfl⟩⟩
  have hlabel : Body.isCodeLabel "Code Context:".toList = true := by decide
  rw [Style.codeOf, List.cons_append, List.cons_append, List.append_assoc, List.cons_append,
    Body.upToCode?, if_pos hlabel, Body.block?, if_pos hopens, hcode]

theorem Writable.ofLines?_below (h : Writable files i) (st : Style) (more : List Line) :
    Body.ofLines? (st.below i ++ more) = some
      ⟨' ' :: i.description.toList, ' ' :: i.impact.toList, i.codeContext.toList,
        ' ' :: i.solution.toList, ' ' :: i.expectedImprovement.toList⟩ := by
  have himpact := afterLabel?_field isLabel_impact i.impact
  simp only [Style.below, List.cons_append, Body.ofLines?,
    atLabel?_cons isLabel_description (afterLabel?_field isLabel_description i.description),
    Body.upToLabel?, himpact, h.upToCode?_codeOf st more, Option.bind_eq_bind, Option.bind_some,
    Option.pure_def, joinLines_cons, stack_nil, List.append_nil]

/-! ## Verdicts -/

theorem text_space (s : String) : Record.text (' ' :: s.toList) = strip s := by
  rw [Record.text, trim_cons_of_isBlank (by decide), strip]

theorem Writable.resolve (h : Writable files i) (root : Option String)
    (hfiles : (files.map (·.relative)).Nodup) : ∃ f,
      (Index.ofFiles files root).resolve i.file = some f ∧ f.relative = i.file ∧
      1 ≤ i.startLine ∧ i.startLine ≤ i.endLine ∧ i.endLine ≤ f.lineCount := by
  obtain ⟨f, hf, hfile, hspan⟩ := h.cites
  refine ⟨f, ?_, hfile, hspan⟩
  have hpairs : ((files.map fun f => (f.relative, f)).map (·.1)).Nodup := by
    rwa [List.map_map]
  have hget : Assoc.get? (Index.ofFiles files root).files i.file = some f := by
    rw [Index.ofFiles, Assoc.ofPairs_eq_self hpairs, Assoc.get?_eq_some_iff hpairs, ← hfile]
    exact List.mem_map_of_mem hf
  have hplain : Citation.plain i.file.toList = i.file.toList := by
    rw [← String.toList_ofList (l := Citation.plain i.file.toList)]
    exact congrArg String.toList h.plainFile
  have hne : i.file.toList.isEmpty = false := by
    simpa using h.named
  simp only [Index.resolve, hplain, Index.find?, hne, Bool.false_eq_true, if_false,
    String.ofList_toList, hget]

theorem Writable.judge_eq (h : Writable files i) (st : Style) (root : Option String)
    (hfiles : (files.map (·.relative)).Nodup) (more : List Line) :
    Record.judge (Index.ofFiles files root) ⟨headerOf i, st.below i ++ more⟩ = .ok (.issue i) := by
  obtain ⟨f, hf, hfile, hstart, hle, hend⟩ := h.resolve root hfiles
  have hshort := h.short
  have hfirst : readDigits (headerOf i).first = .ok i.startLine.natAbs :=
    readDigits_toDigits (by omega)
  have hlast : readDigits (headerOf i).last = .ok i.endLine.natAbs :=
    readDigits_toDigits (by omega)
  have hwithin : spanWithin i.startLine i.endLine f.lineCount = true := by
    simp [spanWithin, hstart, hle, hend]
  have hs : (i.startLine.natAbs : Int) = i.startLine := by omega
  have he : (i.endLine.natAbs : Int) = i.endLine := by omega
  have hcited : String.ofList (headerOf i).path = i.file := String.ofList_toList
  have hcode : Record.text i.codeContext.toList = i.codeContext := h.code.stripped
  refine Record.judge_eq_ok_iff.2 ⟨_, _, hfirst, hlast, ?_⟩
  simp only [Record.verdict, h.ofLines?_below st more, hcited, hf, hs, he, hwithin, if_true, hfile,
    text_space, h.description.stripped, h.impact.stripped, hcode, h.solution.stripped,
    h.expected.stripped]
  rfl

/-! ## Records -/

/-- The record of an issue gives the issue, whatever lines follow. -/
theorem Writable.ofRecords_record (h : Writable files i) (st : Style) (root : Option String)
    (hfiles : (files.map (·.relative)).Nodup) (ls : List Line) :
    ofRecords (Index.ofFiles files root)
        (Outline.ofLines (splitFeeds (st.record i).toList ++ ls)).records =
      ⟨.issue i :: (ofRecords (Index.ofFiles files root) (Outline.ofLines ls).records).verdicts,
        (ofRecords (Index.ofFiles files root) (Outline.ofLines ls).records).fault⟩ := by
  rw [h.splitFeeds_record st, List.cons_append, Outline.ofLines_cons (h.fits st),
    Outline.ofLines_append (h.headless_below st)]
  simp only [ofRecords, h.judge_eq st root hfiles]

theorem ofRecords_text (st : Style) (root : Option String)
    (hfiles : (files.map (·.relative)).Nodup) {is : List Issue} (h : ∀ i ∈ is, Writable files i) :
    ofRecords (Index.ofFiles files root)
        (Outline.ofLines (splitFeeds (st.text is).toList)).records =
      ⟨is.map .issue, none⟩ := by
  induction is with
  | nil => rfl
  | cons i is ih =>
    obtain ⟨hi, his⟩ := List.forall_mem_cons.1 h
    cases is with
    | nil =>
      have hrecord := hi.ofRecords_record st root hfiles []
      rw [List.append_nil] at hrecord
      rw [Style.text, List.map_singleton, String.intercalate_singleton, hrecord]
      rfl
    | cons i' is =>
      -- the blank line between the records goes to the first one, where nothing reads it
      have htext : (st.text (i :: i' :: is)).toList =
          (st.record i).toList ++ '\n' :: ('\n' :: (st.text (i' :: is)).toList) := by
        rw [Style.text, List.map_cons, List.map_cons, String.intercalate_cons_cons,
          String.toList_append, String.toList_append, List.append_assoc]
        rfl
      have hblank : Headless [[]] :=
        headless_cons (Header.ofLine?_eq_none_iff.1 (by decide)) headless_nil
      have hrest := Outline.ofLines_append hblank (splitFeeds (st.text (i' :: is)).toList)
      rw [List.singleton_append] at hrest
      rw [htext, splitFeeds_append_feed, hi.ofRecords_record st root hfiles, splitFeeds_cons,
        if_pos rfl, hrest, ih his]
      rfl

/-- Issues about files of a batch that are written down are read back as they were, in their order,
and nothing is rejected. -/
theorem read_text (st : Style) {files : List Source} (root : Option String)
    (hfiles : (files.map (·.relative)).Nodup) {is : List Issue} (h : ∀ i ∈ is, Writable files i) :
    (read (Index.ofFiles files root) (st.text is)).issues = is ∧
      (read (Index.ofFiles files root) (st.text is)).rejected = [] ∧
      (read (Index.ofFiles files root) (st.text is)).fault = none := by
  have hread : read (Index.ofFiles files root) (st.text is) = ⟨is.map .issue, none⟩ := by
    rw [read, records, foldReturns_eq_self (notMem_text st h)]
    exact ofRecords_text st root hfiles h
  rw [hread]
  refine ⟨?_, ?_, rfl⟩
  · rw [issues, List.filterMap_map]
    exact List.filterMap_some
  · rw [rejected, List.filterMap_map, List.filterMap_eq_nil_iff]
    exact fun _ _ => rfl

/-- The first spelling of each marker, with the language of the code after the fence. -/
def javascriptStyle : Style where
  mark := Severity.marker
  info := "js"
  marks := fun v => by cases v <;> constructor
  oneLine := by decide

def citedFile : Source :=
  ⟨"/p/src/a b:1-2.js", "src/a b:1-2.js", 6, ".js", some .javascript, 0, ⟨"x\ny\nz\n", none⟩⟩

def citingIssues : List Issue := [
  { severity := .warning, file := "src/a b:1-2.js", startLine := 1, endLine := 3
    description := "Impact: none", impact := "", codeContext := "x\n\nSolution: y\n\x60\x60"
    solution := "Use\n  Impact: z\n\nCode Context:\n\x60\x60\x60\nw\n\x60\x60\x60"
    expectedImprovement := "Expected Improvement: 2" },
  { severity := .critical, file := "src/a b:1-2.js", startLine := 2, endLine := 2
    description := "Description: d", impact := "src/a b:1-2.js:1-1", codeContext := ""
    solution := "", expectedImprovement := "" }]

theorem read_text_citingIssues : ([citedFile].map (·.relative)).Nodup ∧
    (∀ i ∈ citingIssues, Writable [citedFile] i) ∧
    (read (Index.ofFiles [citedFile] (some "/p")) (javascriptStyle.text citingIssues)).issues =
      citingIssues ∧
    (read (Index.ofFiles [citedFile] (some "/p")) (javascriptStyle.text citingIssues)).rejected =
      [] ∧
    (read (Index.ofFiles [citedFile] (some "/p")) (javascriptStyle.text citingIssues)).fault =
      none :=
  ⟨by decide, by decide +kernel,
    read_text javascriptStyle (some "/p") (by decide) (by decide +kernel)⟩

end

end PerfReview.Response
