import PerfReview.Proofs.Number.Numeral
import PerfReview.Proofs.Response.BodyForm
import PerfReview.Proofs.Response.HeaderForm
import PerfReview.Response

/-!
# The classification of records

The lines of an answer are a preamble without header lines and passages, each a header line with
the lines up to the next one. `Judged` is the verdict on a passage: by the form of its body, by the
file that is cited, and by the lines that are cited, in this order. An answer that is read to its
end gives one verdict for each passage.
-/

namespace PerfReview.Response

open Text Number

/-! ## What follows a body -/

theorem Labelled.exists_prefix {label : String} {t rest : List Char} (h : Labelled label t rest) :
    ∃ p, t = p ++ ':' :: rest ∧ ∀ s, Labelled label (p ++ ':' :: s) s := by
  obtain ⟨w, hw, rfl⟩ := h
  exact ⟨w ++ label.toList, by simp, fun s => ⟨w, hw, by simp⟩⟩

theorem Block.exists_prefix {code t rest : List Char} (h : Block code t rest) :
    ∃ p, t = p ++ rest ∧ ∀ s, Block code (p ++ s) s := by
  cases h with
  | @code o c _ _ ho hc =>
    refine ⟨o ++ '\n' :: (code ++ '\n' :: (c ++ ['\n'])), by simp, fun s => ?_⟩
    simpa using @Block.code o c code s ho hc
  | @empty o c _ ho hc =>
    refine ⟨o ++ '\n' :: (c ++ ['\n']), by simp, fun s => ?_⟩
    simpa using @Block.empty o c s ho hc

/-- Nothing that follows the last field bears on the fields. -/
theorem Body.Reads.exists_prefix {b : Body} {t : List Char} (h : b.Reads t) :
    ∃ p rest, t = p ++ ':' :: (b.expected ++ rest) ∧ '\n' ∉ b.expected ∧
      ∀ s, b.Reads (p ++ ':' :: (b.expected ++ s)) := by
  obtain ⟨t₁, t₂, gap, t₃, t₄, t₅, rest, hd, hi, hc, hgap, hb, hs, he, hn⟩ := h
  obtain ⟨pd, rfl, hd'⟩ := hd.exists_prefix
  obtain ⟨pi, rfl, hi'⟩ := hi.exists_prefix
  obtain ⟨pc, rfl, hc'⟩ := hc.exists_prefix
  obtain ⟨pb, rfl, hb'⟩ := hb.exists_prefix
  obtain ⟨ps, rfl, hs'⟩ := hs.exists_prefix
  obtain ⟨pe, rfl, he'⟩ := he.exists_prefix
  refine ⟨pd ++ ':' :: (b.description ++ '\n' :: (pi ++ ':' :: (b.impact ++ '\n' :: (pc ++ ':' ::
    (gap ++ '\n' :: (pb ++ (ps ++ ':' :: (b.solution ++ '\n' :: pe)))))))), rest, by simp, hn, ?_⟩
  intro s
  refine ⟨_, _, gap, _, _, _, s, ?_, hi' _, hc' _, hgap, hb' _, hs' _, he' _, hn⟩
  simpa using hd' _

theorem Body.Reads.append {b : Body} {t : List Char} (h : b.Reads t) (s : List Char) :
    b.Reads (t ++ s) := by
  obtain ⟨p, rest, rfl, -, h⟩ := h.exists_prefix
  simpa using h (rest ++ s)

/-- The line feed before the next header line is no part of a field. -/
theorem Body.reads_feed_iff {b : Body} {t : List Char} : b.Reads (t ++ ['\n']) ↔ b.Reads t := by
  refine ⟨fun h => ?_, fun h => h.append _⟩
  obtain ⟨p, rest, e, hn, h'⟩ := h.exists_prefix
  rcases List.eq_nil_or_concat rest with rfl | ⟨rest, c, rfl⟩
  · have hl := congrArg List.getLast? e
    rw [List.getLast?_concat, List.append_nil, List.getLast?_append,
      List.getLast?_eq_some_getLast (by simp), Option.some_or, Option.some_inj] at hl
    have hm : '\n' ∈ ':' :: b.expected := hl ▸ List.getLast_mem _
    simp [hn] at hm
  · have e' : t ++ ['\n'] = (p ++ ':' :: (b.expected ++ rest)) ++ [c] := by rw [e]; simp
    obtain ⟨rfl, -⟩ := List.append_inj' e' rfl
    exact h' rest

/-! ## Passages -/

def Headless (ls : List Line) : Prop := ∀ l ∈ ls, ∀ h : Header, ¬ h.Fits l

theorem headless_nil : Headless [] := fun _ hl => by cases hl

theorem headless_cons {l : Line} {ls : List Line} (hl : ∀ hdr : Header, ¬ hdr.Fits l)
    (hls : Headless ls) : Headless (l :: ls) := List.forall_mem_cons.2 ⟨hl, hls⟩

theorem headless_append {ls ls' : List Line} (h : Headless ls) (h' : Headless ls') :
    Headless (ls ++ ls') := List.forall_mem_append.2 ⟨h, h'⟩

/-- Lines from a header line on, and their records. -/
inductive Passages : List Line → List Record → Prop where
  | nil : Passages [] []
  | cons {line : Line} {r : Record} {rest : List Line} {rs : List Record} : r.header.Fits line →
      Headless r.lines → Passages rest rs → Passages (line :: (r.lines ++ rest)) (r :: rs)

theorem Outline.passages (ls : List Line) : ∃ rest, ls = (Outline.ofLines ls).preamble ++ rest ∧
    Headless (Outline.ofLines ls).preamble ∧ Passages rest (Outline.ofLines ls).records := by
  induction ls with
  | nil => exact ⟨[], rfl, headless_nil, .nil⟩
  | cons l ls ih =>
    obtain ⟨rest, hls, hpre, hrest⟩ := ih
    have step : Outline.ofLines (l :: ls) = (Outline.ofLines ls).push l := rfl
    rw [step, Outline.push]
    cases hh : Header.ofLine? l with
    | some h =>
      refine ⟨l :: ls, rfl, headless_nil, ?_⟩
      have hcons := Passages.cons (r := ⟨h, (Outline.ofLines ls).preamble⟩)
        (Header.ofLine?_eq_some_iff.1 hh) hpre hrest
      rwa [← hls] at hcons
    | none =>
      refine ⟨rest, by rw [List.cons_append, ← hls], ?_, hrest⟩
      exact List.forall_mem_cons.2 ⟨Header.ofLine?_eq_none_iff.1 hh, hpre⟩

theorem Outline.ofLines_cons {l : Line} {hdr : Header} (h : hdr.Fits l) (ls : List Line) :
    Outline.ofLines (l :: ls) =
      ⟨[], ⟨hdr, (Outline.ofLines ls).preamble⟩ :: (Outline.ofLines ls).records⟩ := by
  have step : Outline.ofLines (l :: ls) = (Outline.ofLines ls).push l := rfl
  rw [step, Outline.push, Header.ofLine?_of_fits h]

theorem Outline.ofLines_append {ls : List Line} (h : Headless ls) (ls' : List Line) :
    Outline.ofLines (ls ++ ls') =
      ⟨ls ++ (Outline.ofLines ls').preamble, (Outline.ofLines ls').records⟩ := by
  induction ls with
  | nil => rfl
  | cons l ls ih =>
    obtain ⟨hl, hls⟩ := List.forall_mem_cons.1 h
    have step : Outline.ofLines (l :: ls ++ ls') = (Outline.ofLines (ls ++ ls')).push l := rfl
    rw [step, Outline.push, Header.ofLine?_eq_none_iff.2 hl, ih hls]
    rfl

/-! ## Verdicts -/

/-- The verdict on a header with the text below it, up to the next header line. -/
inductive Judged (ix : Index) (h : Header) (body : List Char) (first last : Nat) :
    Verdict → Prop where
  | malformed : (¬ ∃ b : Body, b.Reads body) →
      Judged ix h body first last (.rejected
        ⟨.malformed, String.ofList h.path, first, last,
          "record body does not follow the issue format"⟩)
  | unknownFile : (∃ b : Body, b.Reads body) → ix.resolve (String.ofList h.path) = none →
      Judged ix h body first last (.rejected
        ⟨.unknownFile, String.ofList h.path, first, last,
          "path is not part of the analysed batch"⟩)
  | lineOutOfRange {f : Source} : (∃ b : Body, b.Reads body) →
      ix.resolve (String.ofList h.path) = some f →
      ¬ (1 ≤ first ∧ first ≤ last ∧ last ≤ f.lineCount) →
      Judged ix h body first last (.rejected
        ⟨.lineOutOfRange, f.relative, first, last,
          s!"file has {Number.natText f.lineCount} line(s)"⟩)
  | issue {b : Body} {f : Source} : b.Reads body →
      ix.resolve (String.ofList h.path) = some f →
      1 ≤ first → first ≤ last → last ≤ f.lineCount →
      Judged ix h body first last (.issue
        { severity := h.severity, file := f.relative, startLine := first, endLine := last
          description := Record.text b.description, impact := Record.text b.impact
          codeContext := Record.text b.code, solution := Record.text b.solution
          expectedImprovement := Record.text b.expected })

def Verdict.reason? (v : Verdict) : Option Reason := v.rejected?.map (·.reason)

theorem Judged.malformed_iff {ix : Index} {h : Header} {body : List Char} {first last : Nat}
    {v : Verdict} (hv : Judged ix h body first last v) :
    v.reason? = some .malformed ↔ ¬ ∃ b : Body, b.Reads body := by
  cases hv with
  | malformed hb => exact ⟨fun _ => hb, fun _ => rfl⟩
  | unknownFile hb => exact ⟨nofun, fun hn => absurd hb hn⟩
  | lineOutOfRange hb => exact ⟨nofun, fun hn => absurd hb hn⟩
  | issue hb => exact ⟨nofun, fun hn => absurd ⟨_, hb⟩ hn⟩

theorem Judged.unknownFile_iff {ix : Index} {h : Header} {body : List Char} {first last : Nat}
    {v : Verdict} (hv : Judged ix h body first last v) :
    v.reason? = some .unknownFile ↔
      (∃ b : Body, b.Reads body) ∧ ix.resolve (String.ofList h.path) = none := by
  cases hv with
  | malformed hb => exact ⟨nofun, fun hn => absurd hn.1 hb⟩
  | unknownFile hb hf => exact ⟨fun _ => ⟨hb, hf⟩, fun _ => rfl⟩
  | lineOutOfRange hb hf => exact ⟨nofun, fun hn => by rw [hf] at hn; cases hn.2⟩
  | issue hb hf => exact ⟨nofun, fun hn => by rw [hf] at hn; cases hn.2⟩

theorem Judged.lineOutOfRange_iff {ix : Index} {h : Header} {body : List Char} {first last : Nat}
    {v : Verdict} (hv : Judged ix h body first last v) :
    v.reason? = some .lineOutOfRange ↔ (∃ b : Body, b.Reads body) ∧
      ∃ f, ix.resolve (String.ofList h.path) = some f ∧
        ¬ (1 ≤ first ∧ first ≤ last ∧ last ≤ f.lineCount) := by
  cases hv with
  | malformed hb => exact ⟨nofun, fun hn => absurd hn.1 hb⟩
  | unknownFile hb hf =>
    refine ⟨nofun, ?_⟩
    rintro ⟨-, f, hf', -⟩
    rw [hf] at hf'
    cases hf'
  | lineOutOfRange hb hf hs => exact ⟨fun _ => ⟨hb, _, hf, hs⟩, fun _ => rfl⟩
  | issue hb hf h₁ h₂ h₃ =>
    refine ⟨nofun, ?_⟩
    rintro ⟨-, f, hf', hs⟩
    rw [hf] at hf'
    cases hf'
    exact absurd ⟨h₁, h₂, h₃⟩ hs

/-- The verdicts on lines from a header line on, one for each passage. -/
inductive Classified (ix : Index) : List Line → List Verdict → Prop where
  | nil : Classified ix [] []
  | cons {line : Line} {h : Header} {below rest : List Line} {first last : Nat} {v : Verdict}
      {vs : List Verdict} : h.Fits line → Headless below →
      Numeral h.first first → Numeral h.last last →
      Judged ix h (stack below ++ if rest = [] then [] else ['\n']) first last v →
      Classified ix rest vs → Classified ix (line :: (below ++ rest)) (v :: vs)

theorem spanWithin_iff {first last lines : Nat} : spanWithin first last lines = true ↔
    1 ≤ first ∧ first ≤ last ∧ last ≤ lines := by
  simp only [spanWithin, Bool.and_eq_true, decide_eq_true_eq]
  omega

theorem Record.judged (ix : Index) {r : Record} (hr : Feedless r.lines) (first last : Nat) :
    Judged ix r.header (stack r.lines) first last (r.verdict ix first last) := by
  unfold Record.verdict
  cases hb : Body.ofLines? r.lines with
  | none => exact .malformed ((Body.ofLines?_eq_none_iff hr).1 hb)
  | some b =>
    have hreads := Body.reads_of_ofLines? hr hb
    cases hf : ix.resolve (String.ofList r.header.path) with
    | none =>
      simp only [hf]
      exact .unknownFile ⟨b, hreads⟩ hf
    | some f =>
      simp only [hf]
      split
      · rename_i hs
        obtain ⟨h₁, h₂, h₃⟩ := spanWithin_iff.1 hs
        exact .issue hreads hf h₁ h₂ h₃
      · rename_i hs
        exact .lineOutOfRange ⟨b, hreads⟩ hf (mt spanWithin_iff.2 hs)

theorem Judged.feed {ix : Index} {h : Header} {body : List Char} {first last : Nat} {v : Verdict}
    (hv : Judged ix h body first last v) : Judged ix h (body ++ ['\n']) first last v := by
  cases hv with
  | malformed hb => exact .malformed (by simpa only [Body.reads_feed_iff] using hb)
  | unknownFile hb hf => exact .unknownFile (by simpa only [Body.reads_feed_iff] using hb) hf
  | lineOutOfRange hb hf hs =>
    exact .lineOutOfRange (by simpa only [Body.reads_feed_iff] using hb) hf hs
  | issue hb hf h₁ h₂ h₃ => exact .issue (Body.reads_feed_iff.2 hb) hf h₁ h₂ h₃

theorem Record.judge_eq_ok_iff {ix : Index} {r : Record} {v : Verdict} :
    r.judge ix = .ok v ↔ ∃ first last, readDigits r.header.first = .ok first ∧
      readDigits r.header.last = .ok last ∧ v = r.verdict ix first last := by
  unfold Record.judge
  cases readDigits r.header.first with
  | error f => simp [bind, Except.bind]
  | ok first =>
    cases readDigits r.header.last with
    | error f => simp [bind, Except.bind]
    | ok last => simp [bind, Except.bind, pure, Except.pure, eq_comm]

theorem Passages.classified {ix : Index} {ls : List Line} {rs : List Record} (h : Passages ls rs)
    (hls : Feedless ls) (hf : (ofRecords ix rs).fault = none) :
    Classified ix ls (ofRecords ix rs).verdicts := by
  induction h with
  | nil => exact .nil
  | @cons line r rest rs hfits hbelow hrest ih =>
    rw [ofRecords] at hf ⊢
    cases hj : r.judge ix with
    | error f =>
      rw [hj] at hf
      cases hf
    | ok v =>
      rw [hj] at hf
      obtain ⟨first, last, h₁, h₂, rfl⟩ := Record.judge_eq_ok_iff.1 hj
      have hr : Feedless r.lines := fun l hl => hls l (by simp [hl])
      have hv := Record.judged ix hr first last
      refine .cons hfits hbelow (readDigits_eq_ok_iff.1 h₁).1 (readDigits_eq_ok_iff.1 h₂).1 ?_
        (ih (hls.of_suffix ⟨line :: r.lines, by simp⟩) hf)
      split
      · simpa using hv
      · exact hv.feed

/-- An answer that is read to its end gives one verdict for each of its header lines, in their
order. -/
theorem read_classifies (ix : Index) (text : String) (h : (read ix text).fault = none) :
    ∃ preamble rest verdicts, splitFeeds (foldReturns text.toList) = preamble ++ rest ∧
      Headless preamble ∧ Classified ix rest verdicts ∧
      (read ix text).issues = verdicts.filterMap Verdict.issue? ∧
      (read ix text).rejected = verdicts.filterMap Verdict.rejected? := by
  obtain ⟨rest, hls, hpre, hrest⟩ := Outline.passages (splitFeeds (foldReturns text.toList))
  have hfeed := (feedless_splitFeeds (foldReturns text.toList)).of_suffix ⟨_, hls.symm⟩
  exact ⟨_, rest, _, hls, hpre, hrest.classified hfeed h, rfl, rfl⟩

def oneFile : Index :=
  Index.ofFiles [⟨"/p/a.js", "a.js", 2, ".js", some .javascript, 0, ⟨"x\n", none⟩⟩] (some "/p")

/-- An answer with a finding and a record that breaks off. -/
def twoRecords : String :=
  "- 🚨 ./a.js:1-1\nDescription: d\nImpact: i\nCode Context:\n\x60\x60\x60\nx\n\x60\x60\x60\n" ++
    "Solution: s\nExpected Improvement: e\n💡 b.js : 2 - 3\n"

theorem read_classifies_twoRecords : (read oneFile twoRecords).fault = none ∧
    ∃ preamble rest verdicts, splitFeeds (foldReturns twoRecords.toList) = preamble ++ rest ∧
      Headless preamble ∧ Classified oneFile rest verdicts ∧
      (read oneFile twoRecords).issues = verdicts.filterMap Verdict.issue? ∧
      (read oneFile twoRecords).rejected = verdicts.filterMap Verdict.rejected? :=
  ⟨by decide +kernel, read_classifies oneFile twoRecords (by decide +kernel)⟩

end PerfReview.Response
