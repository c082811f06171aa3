import PerfReview.Proofs.Disk.Folders
import PerfReview.Session

/-!
# What a session leaves alone

A command logs as it goes, and what it logs is added to one file at most: `Log.Sink.LeadsTo` tells
where. Every other file stays as it is, every path that led to a file leads to it still, and the file
that takes the log keeps what it held in front of the new entries.
-/

namespace PerfReview

open Disk (SameFiles)

namespace Log

/-- The log goes to the file at a place. -/
def Sink.LeadsTo (k : Sink) (site : Site) (q : List String) : Prop :=
  ∃ path n, k.file = some path ∧ site.locate (place site path) = .ok (q, n)

variable {k : Sink} {site : Site} {d : Disk} {q : List String}

theorem place_on (site : Site) (d : Disk) (path : String) :
    place (site.on d) path = place site path := rfl

theorem Sink.LeadsTo.extends {aside : List String → Prop} (h : k.LeadsTo site q)
    (hd : site.disk.Extends aside d) : k.LeadsTo (site.on d) q := by
  obtain ⟨path, n, hfile, hlocate⟩ := h
  obtain ⟨hadmits, hlocate⟩ := Site.locate_eq_ok.1 hlocate
  obtain ⟨n', hn', -⟩ := hd.followLinks hlocate
  refine ⟨path, n', hfile, ?_⟩
  rw [place_on]
  exact Site.locate_eq_ok.2 ⟨hadmits, hn'⟩

/-- In `d` a text has been added to the file at a place, which takes the log, and nothing else has
changed. -/
structure Added (k : Sink) (text : String) (site : Site) (q : List String) (d : Disk) : Prop where
  leads : k.LeadsTo (site.on d) q
  /-- What the file held stands in front. -/
  here : ∃ before mode, d.top.at? q = some (.file (before ++ Text.encode text) mode) ∧
    ∀ bytes mode', site.disk.top.at? q = some (.file bytes mode') → before = bytes
  stays : site.disk.Extends (· = q) d
  files : SameFiles (· = q) site.disk d

theorem written_of_locate {path : String} {bytes : List UInt8} {mode : Nat}
    (hadmits : Site.admits (place site path) = .ok ())
    (h : site.disk.locate (Path.parts (site.absolute (place site path))) =
      .ok (q, .file bytes mode)) : written site path = bytes := by
  unfold written
  rw [Site.read_eq_ok.2 ⟨hadmits, q, mode, h⟩]

theorem added_of_write (k : Sink) (site : Site) {path : String} (hk : k.file = some path)
    (text : String) {d : Disk} (hadmits : Site.admits (place site path) = .ok ())
    (hwrite : site.disk.write (Path.parts (site.absolute (place site path)))
      (written site path ++ Text.encode text) = .ok d) : ∃ q, Added k text site q d := by
  obtain ⟨q, mode, hlocate, hstays, hfiles, hbefore⟩ := Disk.extends_of_write hwrite
  have hleads : k.LeadsTo (site.on d) q := by
    refine ⟨path, .file (written site path ++ Text.encode text) mode, hk, ?_⟩
    rw [place_on]
    exact Site.locate_eq_ok.2 ⟨hadmits, hlocate⟩
  have hhere := (Disk.followLinks_leads hlocate).resolve_right fun h => by cases h.1
  exact ⟨q, hleads, ⟨_, mode, hhere, fun bytes mode' hold =>
    written_of_locate hadmits (hbefore bytes mode' hold)⟩, hstays, hfiles⟩

theorem append_cases (k : Sink) (site : Site) {path : String} (hk : k.file = some path)
    (text : String) : ((append site path text).run site.disk).2 = site.disk ∨
      ∃ q, Added k text site q ((append site path text).run site.disk).2 := by
  unfold append
  rw [Site.run_write]
  cases hadmits : Site.admits (place site path) with
  | error f => exact .inl rfl
  | ok =>
    cases hwrite : site.disk.write (Path.parts (site.absolute (place site path)))
        (written site path ++ Text.encode text) with
    | error f => exact .inl rfl
    | ok d => exact .inr (added_of_write k site hk text hadmits hwrite)

end Log

namespace Session

variable {σ : Type} {s s' s'' : Session σ}

/-- Two sessions differ at most in their files and in what was shown as an error. -/
structure Quiet (s s' : Session σ) : Prop where
  line : s'.line = s.line
  onInterrupt : s'.onInterrupt = s.onInterrupt
  sink : s'.sink = s.sink
  out : s'.out = s.out

theorem Quiet.refl (s : Session σ) : Quiet s s := ⟨rfl, rfl, rfl, rfl⟩

theorem Quiet.trans (h : Quiet s s') (h' : Quiet s' s'') : Quiet s s'' :=
  ⟨h'.line.trans h.line, h'.onInterrupt.trans h.onInterrupt, h'.sink.trans h.sink,
    h'.out.trans h.out⟩

theorem quiet_complain (s : Session σ) (text : String) : Quiet s (s.complain text) :=
  ⟨rfl, rfl, rfl, rfl⟩

theorem change_eq {ε α : Type} (c : Change ε α) (s : Session σ) : s.change c =
    ((c.run s.site.disk).1, { s with site := s.site.on (c.run s.site.disk).2 }) := rfl

theorem quiet_change {ε α : Type} (s : Session σ) (c : Change ε α) : Quiet s (s.change c).2 :=
  ⟨rfl, rfl, rfl, rfl⟩

theorem quiet_log (s : Session σ) (es : List Log.Entry) : Quiet s (s.log es) := by
  unfold log
  dsimp only
  split
  · exact quiet_complain s _
  · exact (quiet_complain s _).trans (quiet_change _ _)

theorem quiet_giveUp (s : Session σ) (f : CommandFault) : Quiet s (s.giveUp f).2 := by
  unfold giveUp
  split
  · exact quiet_complain s _
  · exact .refl s

theorem openLog_onInterrupt (m : Machine σ) (verbose : Bool) (file : Option String)
    (s : Session σ) : (s.openLog m verbose file).2.onInterrupt = s.onInterrupt := by
  unfold openLog
  split
  · rfl
  · dsimp only
    split
    · rfl
    · exact (quiet_change _ _).onInterrupt

theorem log_eq (h : s.sink.file = none) (es : List Log.Entry) :
    s.log es = s.complain (s.sink.onConsole es) := by
  unfold log
  dsimp only
  rw [show (s.complain (s.sink.onConsole es)).sink.file = none from h]

theorem log_site (s : Session σ) (es : List Log.Entry) : (s.log es).site =
    match s.sink.file with
    | none => s.site
    | some path => s.site.on ((Log.append s.site path (s.sink.inFile es)).run s.site.disk).2 := by
  unfold log complain
  dsimp only
  cases s.sink.file with
  | none => rfl
  | some path => simp only [change_eq]

theorem log_site_congr (hsite : s'.site = s.site) (hsink : s'.sink = s.sink)
    (es : List Log.Entry) : (s'.log es).site = (s.log es).site := by
  rw [log_site, log_site, hsite, hsink]

/-! ## Logs -/

theorem log_cases (s : Session σ) (es : List Log.Entry) : (s.log es).site = s.site ∨
    ∃ q d, (s.log es).site = s.site.on d ∧ Log.Added s.sink (s.sink.inFile es) s.site q d := by
  rw [log_site]
  cases hfile : s.sink.file with
  | none => exact .inl rfl
  | some path =>
    obtain h | ⟨q, hadded⟩ := Log.append_cases s.sink s.site hfile (s.sink.inFile es)
    · exact .inl (congrArg s.site.on h)
    · exact .inr ⟨q, _, rfl, hadded⟩

/-- A path leads to the file to which it led before the log was written. If the log goes there, what
was logged stands behind what the file held. -/
theorem locate_log {path : String} {q : List String} {bytes : List UInt8} {mode : Nat}
    (h : s.site.locate path = .ok (q, .file bytes mode)) (es : List Log.Entry) :
    ∃ more, (s.log es).site.locate path = .ok (q, .file (bytes ++ more) mode) ∧
      (more = [] ∨ s.sink.LeadsTo (s.log es).site q ∧ more = Text.encode (s.sink.inFile es)) := by
  obtain e | ⟨q', d, e, hadded⟩ := s.log_cases es
  · exact ⟨[], by rw [e, List.append_nil, h], .inl rfl⟩
  rw [e]
  obtain ⟨hadmits, hlocate⟩ := Site.locate_eq_ok.1 h
  by_cases hq : q = q'
  · subst hq
    obtain ⟨n, hn, halike⟩ := hadded.stays.followLinks hlocate
    obtain ⟨before, mode', hhere, hbefore⟩ := hadded.here
    have hhere' := (Disk.followLinks_leads hn).resolve_right fun h => by cases h.1
    have hold := (Disk.followLinks_leads hlocate).resolve_right fun h => by cases h.1
    cases hhere.symm.trans hhere'
    cases halike
    cases hbefore bytes mode hold
    exact ⟨_, Site.locate_eq_ok.2 ⟨hadmits, hn⟩, .inr ⟨hadded.leads, rfl⟩⟩
  · refine ⟨[], Site.locate_eq_ok.2 ⟨hadmits, ?_⟩, .inl rfl⟩
    rw [List.append_nil]
    exact hadded.stays.locate_file hlocate hq

/-- The files of two sessions differ by log entries at most. -/
inductive Logged : Session σ → Session σ → Prop where
  | same {s s' : Session σ} : s'.site = s.site → Logged s s'
  | log {s s' : Session σ} (es : List Log.Entry) : Logged (s.log es) s' → Logged s s'

theorem Logged.congr (h : Logged s s') (hs : s''.site = s'.site) : Logged s s'' := by
  induction h with
  | same h => exact .same (hs.trans h)
  | log es _ ih => exact .log es (ih hs)

/-- Files of which the log goes to none are as before, and the log goes where it went. -/
theorem Logged.files (h : Logged s s') :
    s.site.disk.Extends (s.sink.LeadsTo s'.site) s'.site.disk ∧
      SameFiles (s.sink.LeadsTo s'.site) s.site.disk s'.site.disk ∧
      ∀ q, s.sink.LeadsTo s.site q → s.sink.LeadsTo s'.site q := by
  induction h with
  | same h =>
    rw [h]
    exact ⟨.refl _ _, .refl _ _, fun _ => id⟩
  | @log s s' es _ ih =>
    rw [(quiet_log s es).sink] at ih
    obtain ⟨hstays, hfiles, hleads⟩ := ih
    obtain e | ⟨q, d, e, hadded⟩ := s.log_cases es
    · rw [e] at hstays hfiles hleads
      exact ⟨hstays, hfiles, hleads⟩
    · rw [e] at hstays hfiles hleads
      have hq : ∀ q', q' = q → s.sink.LeadsTo s'.site q' := fun _ h => h ▸ hleads q hadded.leads
      exact ⟨(hadded.stays.mono hq).trans hstays, (hadded.files.mono hq).trans hfiles,
        fun q' h => hleads q' (h.extends hadded.stays)⟩

theorem giveUp_site (s : Session σ) (f : CommandFault) : (s.giveUp f).2.site = s.site := by
  unfold giveUp
  split <;> rfl

/-- Nothing came of a command: it failed, nothing was sent, and no file changed but the one that takes
the log, whose entries are all that has changed. -/
structure Unharmed (s : Session σ) (e : Finish × Session σ) : Prop where
  failed : e.1 = .exit 1 ∨ ∃ f, e.1 = .crash f
  unsent : e.2.line = s.line
  logged : Logged s e.2
  files : SameFiles (s.sink.LeadsTo e.2.site) s.site.disk e.2.site.disk

theorem Logged.unharmed {e : Finish × Session σ} (h : Logged s e.2)
    (hfailed : e.1 = .exit 1 ∨ ∃ f, e.1 = .crash f) (hline : e.2.line = s.line) : Unharmed s e :=
  ⟨hfailed, hline, h, h.files.2.1⟩

theorem giveUp_failed (s : Session σ) (f : CommandFault) :
    (s.giveUp f).1 = .exit 1 ∨ ∃ f', (s.giveUp f).1 = .crash f' := by
  unfold giveUp
  split
  · exact .inl rfl
  · exact .inr ⟨f, rfl⟩

theorem unharmed_giveUp (s : Session σ) (f : CommandFault) : Unharmed s (s.giveUp f) :=
  (Logged.same (giveUp_site s f)).unharmed (giveUp_failed s f) (quiet_giveUp s f).line

theorem Unharmed.log {es : List Log.Entry} {e : Finish × Session σ} (h : Unharmed (s.log es) e) :
    Unharmed s e :=
  (Logged.log es h.logged).unharmed h.failed (h.unsent.trans (quiet_log s es).line)

end Session

end PerfReview
