import PerfReview.Proofs.Session.Effects

/-!
# Reports of a session

A run with a result ends with a report where the options and the settings say, if a file can be
written there and the report has a text that can be written: an integer that is too long or a
surrogate in the text ends the command as a crash, the latter with an empty file.
-/

namespace PerfReview.Session

open Disk (SameFiles)

variable {σ : Type} {o : ScanOptions} {b : Basis} {r : Result} {path : String} {s s' : Session σ}

def reportOf (b : Basis) (r : Result) (s : Session σ) : Report :=
  ⟨r, some b.limits, b.audit, s.clock.now⟩

/-- The place that the options or the settings name for a report. -/
def Destined (o : ScanOptions) (b : Basis) (r : Result) (path : String) (s : Session σ) : Prop :=
  ∃ given, s.pathOf? o.output = .ok given ∧
    (s.reportOf b r).place (outputFor o b.settings) s.site s.site.working given = .ok path

/-- The report of the result has a text, and it can be written. -/
def Printable (o : ScanOptions) (b : Basis) (r : Result) (s : Session σ) : Prop :=
  ∃ format text, Format.ofName? (outputFor o b.settings).format = some format ∧
    (s.reportOf b r).render format = .ok text ∧ Text.unwritable? text = none

theorem printable_iff {format : Format}
    (hformat : Format.ofName? (outputFor o b.settings).format = some format) : Printable o b r s ↔
      ∃ text, (s.reportOf b r).render format = .ok text ∧ Text.unwritable? text = none := by
  refine ⟨fun ⟨f, text, hf, h⟩ => ?_, fun ⟨text, h⟩ => ⟨format, text, hformat, h⟩⟩
  cases hformat.symm.trans hf
  exact ⟨text, h⟩

/-- A scan has ended with a report: `s` is the session when its run was over. -/
structure Reported (o : ScanOptions) (b : Basis) (r : Result) (path : String) (s : Session σ)
    (e : Finish × Session σ) : Prop where
  finish : e.1 = .exit (if r.cancelled then 130 else 0)
  shown :
    let count (v : Severity) := Number.natText (r.findings.ofSeverity v).length
    e.2.out = s.out ++
      s!"Found {count .critical} critical, {count .warning} warning(s), {count .suggestion} suggestion(s)\n" ++
      s!"Report written to {e.2.shown path}\n"
  /-- The file holds the text of the report, and other files change by the log alone. If the log goes
  to the same file, its last entry stands behind the text in the end. -/
  written : ∃ format text disk place mode more,
    Format.ofName? (outputFor o b.settings).format = some format ∧
    (s.reportOf b r).render format = .ok text ∧
    (s.site.on disk).locate path = .ok (place, .file (Text.encode text) mode) ∧
    SameFiles (· = place) s.site.disk disk ∧
    e.2.site = ({ s with site := s.site.on disk }.log [Report.writtenLog path]).site ∧
    e.2.site.locate path = .ok (place, .file (Text.encode text ++ more) mode) ∧
    (more = [] ∨ s.sink.LeadsTo e.2.site place ∧
      more = Text.encode (s.sink.inFile [Report.writtenLog path])) ∧
    SameFiles (fun q => q = place ∨ s.sink.LeadsTo e.2.site q) s.site.disk e.2.site.disk

section
variable {report : Report} {output : Output} {site : Site} {base : String} {given : Option String}
  {format : Format} {text : String} {d d' : Disk}

theorem run_write (hf : Format.ofName? output.format = some format)
    (hp : report.place output site base given = .ok path) (ht : report.render format = .ok text) :
    (report.write output site base given).run d =
      (((site.writeText path text).run d).1.mapError (fun
          | .inl f => .unusable f
          | .inr u => .unusable (.surrogates u)) |>.map fun _ => path,
        ((site.writeText path text).run d).2) := by
  unfold Report.write
  rw [hf]
  dsimp only
  simp only [Change.run_bind, Change.run_lift, Change.run_adapt, Change.run_pure, hp, ht,
    Except.mapError]
  generalize (site.writeText path text).run d = w
  obtain ⟨w, d'⟩ := w
  cases w <;> rfl

theorem run_write_of_render {f : WriteFault} (hf : Format.ofName? output.format = some format)
    (hp : report.place output site base given = .ok path) (ht : report.render format = .error f) :
    (report.write output site base given).run d = (.error f, d) := by
  unfold Report.write
  rw [hf]
  dsimp only
  simp only [Change.run_bind, Change.run_lift, hp, ht, Except.mapError]

end

theorem writeReport_eq {given : Option String} (hg : s.pathOf? o.output = .ok given) :
    s.writeReport o b r =
      let w := ((s.reportOf b r).write (outputFor o b.settings) s.site s.site.working given).run
        s.site.disk
      (w.1.mapError .report, { s with site := s.site.on w.2 }) := by
  simp only [writeReport, hg, change_eq, Change.run_adapt]
  rfl

theorem report_crash {f : WriteFault} (h : s.writeReport o b r = (.error (.report f), s')) :
    (s.report o b r).1 = .crash (.report f) := by
  simp only [report, h]
  rfl

/-- The end of a scan whose report was written. -/
theorem report_of_written {disk : Disk}
    (h : s.writeReport o b r = (.ok path, { s with site := s.site.on disk })) :
    (s.report o b r).1 = .exit (if r.cancelled then 130 else 0) ∧
      (s.report o b r).2.site =
        ({ s with site := s.site.on disk }.log [Report.writtenLog path]).site ∧
      (s.report o b r).2.out =
        s.out ++ summary r ++ s!"Report written to {(s.report o b r).2.shown path}\n" := by
  have hout := (quiet_log { s with site := s.site.on disk } [Report.writtenLog path]).out
  simp only [report, h, close]
  split <;> exact ⟨rfl, rfl, congrArg (· ++ summary r ++ _) hout⟩

/-- What is left of a file that was written before an entry of the log. -/
theorem left_of_log {disk : Disk} {place : List String} {bytes : List UInt8} {mode : Nat}
    (hloc : (s.site.on disk).locate path = .ok (place, .file bytes mode))
    (hsame : SameFiles (· = place) s.site.disk disk) (es : List Log.Entry) :
    let site := ({ s with site := s.site.on disk }.log es).site
    ∃ more, site.locate path = .ok (place, .file (bytes ++ more) mode) ∧
      (more = [] ∨ s.sink.LeadsTo site place ∧ more = Text.encode (s.sink.inFile es)) ∧
      SameFiles (fun q => q = place ∨ s.sink.LeadsTo site q) s.site.disk site.disk := by
  obtain ⟨more, hleft, hmore⟩ := locate_log (s := { s with site := s.site.on disk }) hloc es
  have hlogged : Logged { s with site := s.site.on disk } _ := .log es (.same rfl)
  exact ⟨more, hleft, hmore, (hsame.mono fun _ => .inl).trans (hlogged.files.2.1.mono fun _ => .inr)⟩

theorem quiet_writeReport (o : ScanOptions) (b : Basis) (r : Result) (s : Session σ) :
    Quiet s (s.writeReport o b r).2 := by
  unfold writeReport
  split
  · exact .refl s
  · exact quiet_change s _

theorem report_keeps (o : ScanOptions) (b : Basis) (r : Result) (s : Session σ) :
    (s.report o b r).2.onInterrupt = s.onInterrupt ∧ (s.report o b r).2.line = s.line := by
  have hwrite := quiet_writeReport o b r s
  unfold report
  split
  · rename_i f s' e
    rw [e] at hwrite
    have hquiet := hwrite.trans (quiet_giveUp s' f)
    exact ⟨hquiet.onInterrupt, hquiet.line⟩
  · rename_i path s' e
    rw [e] at hwrite
    have hquiet := hwrite.trans (quiet_log s' [Report.writtenLog path])
    unfold close
    split <;> exact ⟨hquiet.onInterrupt, hquiet.line⟩

/-- A report is written if it has a text that can be written, and otherwise the scan crashes. -/
theorem report_cases {format : Format}
    (hformat : Format.ofName? (outputFor o b.settings).format = some format)
    (hd : s.Destined o b r path) (ha : s.site.Accepts path) :
    (Reported o b r path s (s.report o b r) ∧ Printable o b r s) ∨
      ((∃ f, (s.report o b r).1 = .crash f) ∧ ¬Printable o b r s) := by
  obtain ⟨given, hgiven, hplace⟩ := hd
  have hwrite := writeReport_eq (b := b) (r := r) hgiven
  rw [printable_iff hformat]
  cases hrender : (s.reportOf b r).render format with
  | error f =>
    rw [run_write_of_render hformat hplace hrender] at hwrite
    exact .inr ⟨⟨_, report_crash hwrite⟩, fun ⟨text, ht, _⟩ => by cases ht⟩
  | ok text =>
    rw [run_write hformat hplace hrender] at hwrite
    cases hu : Text.unwritable? text with
    | some u =>
      have hencode : Text.encodeStrict text = .error u := by simp only [Text.encodeStrict, hu]
      obtain ⟨d', hrun⟩ := ha.writeText_error hencode
      rw [hrun] at hwrite
      refine .inr ⟨⟨_, report_crash hwrite⟩, fun ⟨text', ht, hu'⟩ => ?_⟩
      cases ht
      cases hu.symm.trans hu'
    | none =>
      have hencode : Text.encodeStrict text = .ok (Text.encode text) := by
        simp only [Text.encodeStrict, hu]
      obtain ⟨d', place, mode, hrun, hloc, hsame⟩ := ha.writeText hencode
      rw [hrun] at hwrite
      obtain ⟨hfinish, hsite, hout⟩ := report_of_written hwrite
      obtain ⟨more, hleft, hmore, hfiles⟩ := left_of_log hloc hsame [Report.writtenLog path]
      rw [← hsite] at hleft hmore hfiles
      exact .inl ⟨⟨hfinish, hout, format, text, d', place, mode, more, hformat, hrender, hloc, hsame,
        hsite, hleft, hmore, hfiles⟩, text, rfl, hu⟩

theorem reported_iff {format : Format}
    (hformat : Format.ofName? (outputFor o b.settings).format = some format)
    (hd : s.Destined o b r path) (ha : s.site.Accepts path) :
    Reported o b r path s (s.report o b r) ↔ Printable o b r s := by
  obtain ⟨hr, hprintable⟩ | ⟨⟨f, hcrash⟩, hnone⟩ := report_cases hformat hd ha
  · exact iff_of_true hr hprintable
  · refine iff_of_false (fun hr => ?_) hnone
    cases hcrash.symm.trans hr.finish

/-! ## A report that has no bytes -/

theorem mem_markdown {report : Report} {line : String} {x : Char}
    (hl : line ∈ Report.Markdown.lines report) (hx : x ∈ line.toList) :
    x ∈ report.markdown.toList := by
  rw [Report.markdown, String.toList_join]
  refine List.mem_flatMap.2 ⟨line ++ "\n", List.mem_map_of_mem hl, ?_⟩
  rw [String.toList_append]
  exact List.mem_append_left _ hx

/-- A Markdown report shows the metrics of its findings, and with them their surrogates. -/
theorem not_printable_of_metrics {a : Audit} {x : Char}
    (hf : Format.ofName? (outputFor o b.settings).format = some .md)
    (ha : b.audit.filter (!·.isEmpty) = some a) (hx : x ∈ (Text.strip a.metrics).toList)
    (hs : Text.isSurrogate x = true) : ¬Printable o b r s := by
  rintro ⟨format, text, hformat, hrender, hu⟩
  cases hf.symm.trans hformat
  have htext : (s.reportOf b r).markdown = text := Except.ok.inj hrender
  have hfindings : (s.reportOf b r).findings? = some a := ha
  have hline : Text.strip a.metrics ∈ Report.Markdown.lines (s.reportOf b r) := by
    simp [Report.Markdown.lines, hfindings, Report.Markdown.findingsLines]
  have hmem := mem_markdown hline hx
  rw [htext] at hmem
  cases (Text.isSurrogate_of_mem hu hmem).symm.trans hs

end PerfReview.Session
