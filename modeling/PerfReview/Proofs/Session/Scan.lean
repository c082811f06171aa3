import PerfReview.Proofs.Run.Trace
import PerfReview.Proofs.Session.Report
import PerfReview.Proofs.Settings
import PerfReview.Standard

/-!
# What a scan leaves behind

A scan either halts before its run, and then it has sent nothing and changed no file but the log, or
it has a run. A run with a result ends with a report, if a file can be written where it is due and
the report has a text that can be written. What an interrupt does is as before in every case.
-/

namespace PerfReview.Session

open Settings (bind_eq_ok mapError_eq_ok)

variable {σ : Type} {m : Machine σ} {o : ScanOptions} {s : Session σ}

/-! ## The run of a scan -/

/-- The session when it has logged where its audit findings come from. -/
def informed (b : Basis) (s : Session σ) : Session σ := s.log (b.auditFile.map Audit.loadLog).toList

section
variable [Json.Room]

/-- The run of a scan that begins. An interrupt fires its token. -/
def runFrom (m : Machine σ) (b : Basis) (c : Client) (target : String) (s : Session σ) :
    Progress (Client.Line σ) :=
  runOf m target b c { s.informed b with onInterrupt := .firesToken }

def ran (m : Machine σ) (b : Basis) (c : Client) (target : String) (s : Session σ) : Session σ :=
  let p := s.runFrom m b c target
  { s.informed b with line := p.adapter.state, clock := p.clock }.log
    ({ s with onInterrupt := .firesToken }.earlyLog m ++ p.log ++ p.adapter.closingLog)

theorem ran_onInterrupt (m : Machine σ) (b : Basis) (c : Client) (target : String)
    (s : Session σ) : (s.ran m b c target).onInterrupt = s.onInterrupt :=
  (quiet_log _ _).onInterrupt.trans (quiet_log s _).onInterrupt

theorem logged_ran (m : Machine σ) (b : Basis) (c : Client) (target : String) (s : Session σ) :
    Logged s (s.ran m b c target) := by
  obtain ⟨es, hsite⟩ : ∃ es, (s.ran m b c target).site = ((s.informed b).log es).site := by
    refine ⟨_, log_site_congr ?_ ?_ _⟩
    all_goals rfl
  exact .log _ (.log es (.same hsite))

end

/-! ## The course of a scan -/

section
variable [Json.Room] [Yaml.Library] {b : Basis} {c : Client} {target path : String} {r : Result}

/-- What a scan needs is found: what it starts from, a client and a folder. -/
structure Begins (m : Machine σ) (o : ScanOptions) (s : Session σ) (b : Basis) (c : Client)
    (target : String) : Prop where
  basis : s.basisFor o = .ok b
  client : (s.informed b).clientFor m o b.settings = .ok c
  target : (s.informed b).targetFor o b.settings = .ok target

theorem scan_of_basis {f : CommandFault} (m : Machine σ) (h : s.basisFor o = .error f) :
    s.scan m o = s.giveUp f := by
  unfold scan
  rw [h]

theorem scan_of_client {f : CommandFault} (hb : s.basisFor o = .ok b)
    (hc : (s.informed b).clientFor m o b.settings = .error f) :
    s.scan m o = (s.informed b).giveUp f := by
  unfold informed at hc ⊢
  unfold scan
  simp only [hb, hc]

theorem scan_of_target {f : PathFault} (hb : s.basisFor o = .ok b)
    (hc : (s.informed b).clientFor m o b.settings = .ok c)
    (ht : (s.informed b).targetFor o b.settings = .error f) :
    s.scan m o = (s.informed b).giveUp (.path f) := by
  unfold informed at hc ht ⊢
  unfold scan
  simp only [hb, hc, ht]

theorem Begins.scan_eq_review (h : Begins m o s b c target) :
    s.scan m o = (s.informed b).review m o target b c := by
  obtain ⟨hb, hc, ht⟩ := h
  unfold informed at hc ht ⊢
  unfold scan
  simp only [hb, hc, ht]

theorem Begins.scan_eq (h : Begins m o s b c target) : s.scan m o =
    match (s.runFrom m b c target).outcome with
    | .error f => (.exit 1, (s.ran m b c target).complain (failure f))
    | .ok r => (s.ran m b c target).report o b r :=
  h.scan_eq_review.trans rfl

/-- A scan gives up, at one of three points, or begins. -/
theorem scan_cases (m : Machine σ) (o : ScanOptions) (s : Session σ) :
    (∃ f, s.scan m o = s.giveUp f) ∨ (∃ b f, s.scan m o = (s.informed b).giveUp f) ∨
      ∃ b c target, Begins m o s b c target := by
  cases hb : s.basisFor o with
  | error f => exact .inl ⟨f, scan_of_basis m hb⟩
  | ok b =>
    cases hc : (s.informed b).clientFor m o b.settings with
    | error f => exact .inr (.inl ⟨b, f, scan_of_client hb hc⟩)
    | ok c =>
      cases ht : (s.informed b).targetFor o b.settings with
      | error f => exact .inr (.inl ⟨b, .path f, scan_of_target hb hc ht⟩)
      | ok target => exact .inr (.inr ⟨b, c, target, hb, hc, ht⟩)

/-- What an interrupt does is as before when a scan is over. -/
theorem scan_onInterrupt (m : Machine σ) (o : ScanOptions) (s : Session σ) :
    (s.scan m o).2.onInterrupt = s.onInterrupt := by
  obtain ⟨f, e⟩ | ⟨b, f, e⟩ | ⟨b, c, target, h⟩ := scan_cases m o s
  · rw [e]
    exact (quiet_giveUp s f).onInterrupt
  · rw [e]
    exact (quiet_giveUp _ f).onInterrupt.trans (quiet_log s _).onInterrupt
  · rw [h.scan_eq]
    cases (s.runFrom m b c target).outcome with
    | error f => exact ran_onInterrupt m b c target s
    | ok r => exact (report_keeps o b r _).1.trans (ran_onInterrupt m b c target s)

/-! ## Scans that halt -/

/-- Why a scan has no run, or a run that finds no folder. -/
inductive Halts (m : Machine σ) (o : ScanOptions) (s : Session σ) : Prop where
  | settings {f : CommandFault} (h : s.settingsFor o = .error f)
  | limits {settings : Settings} {f : CommandFault} (hs : s.settingsFor o = .ok settings)
    (h : limitsFor o settings.limits = .error f)
  | auditFile {settings : Settings} {f : PathFault} (hs : s.settingsFor o = .ok settings)
    (h : s.auditFileFor o settings = .error f)
  | audit {settings : Settings} {file : String} {f : AuditFault}
    (hs : s.settingsFor o = .ok settings) (hf : s.auditFileFor o settings = .ok (some file))
    (h : Audit.load s.site file = .error f)
  | client {b : Basis} {f : CommandFault} (hb : s.basisFor o = .ok b)
    (h : (s.informed b).clientFor m o b.settings = .error f)
  | path {b : Basis} {f : PathFault} (hb : s.basisFor o = .ok b)
    (h : (s.informed b).targetFor o b.settings = .error f)
  | target {b : Basis} {c : Client} {target : String} {f : TargetFault}
    (hb : Begins m o s b c target) (h : (s.runFrom m b c target).outcome = .error (.target f))

theorem basisFor_eq_ok (h : s.basisFor o = .ok b) : s.settingsFor o = .ok b.settings ∧
    limitsFor o b.settings.limits = .ok b.limits ∧
    s.auditFileFor o b.settings = .ok b.auditFile ∧
    b.auditFile.mapM (Audit.load s.site) = .ok b.audit := by
  unfold basisFor at h
  obtain ⟨settings, hsettings, h⟩ := bind_eq_ok.1 h
  obtain ⟨limits, hlimits, h⟩ := bind_eq_ok.1 h
  obtain ⟨auditFile, hfile, h⟩ := bind_eq_ok.1 h
  obtain ⟨audit, haudit, h⟩ := bind_eq_ok.1 h
  cases h
  exact ⟨hsettings, hlimits, mapError_eq_ok.1 hfile, mapError_eq_ok.1 haudit⟩

/-- A scan that halts has done no harm. -/
theorem Halts.unharmed (h : Halts m o s) : Unharmed s (s.scan m o) := by
  obtain ⟨f, e⟩ | ⟨b, f, e⟩ | ⟨b, c, target, hb⟩ := scan_cases m o s
  · rw [e]
    exact unharmed_giveUp s f
  · rw [e]
    exact (unharmed_giveUp _ f).log
  · -- a scan that begins halts for want of a folder alone
    obtain ⟨hsettings, hlimits, hfile, haudit⟩ := basisFor_eq_ok hb.basis
    cases h with
    | settings h => cases h.symm.trans hsettings
    | limits hs h =>
      cases hs.symm.trans hsettings
      cases h.symm.trans hlimits
    | auditFile hs h =>
      cases hs.symm.trans hsettings
      cases h.symm.trans hfile
    | audit hs hf h =>
      cases hs.symm.trans hsettings
      rw [← Except.ok.inj (hf.symm.trans hfile)] at haudit
      simp [h] at haudit
    | client hb' h =>
      cases hb'.symm.trans hb.basis
      cases h.symm.trans hb.client
    | path hb' h =>
      cases hb'.symm.trans hb.basis
      cases h.symm.trans hb.target
    | @target b c target f hb h =>
      rw [hb.scan_eq, h]
      refine Logged.unharmed ?_ (.inl rfl) ?_
      · exact (logged_ran m b c target s).congr rfl
      · have hadapter := Run.adapter_of_target h
        calc ((s.ran m b c target).complain _).line
          _ = (s.runFrom m b c target).adapter.state := (quiet_log _ _).line
          _ = (s.informed b).line := congrArg Adapter.state hadapter
          _ = s.line := (quiet_log s _).line

/-! ## Scans with a result -/

theorem format_of_begins (h : Begins m o s b c target) :
    ∃ format, Format.ofName? (outputFor o b.settings).format = some format := by
  unfold outputFor
  cases o.format with
  | some f => exact ⟨f, by cases f <;> rfl⟩
  | none =>
    have hload := mapError_eq_ok.1 (basisFor_eq_ok h.basis).1
    exact Option.isSome_iff_exists.1 (Settings.format_of_load hload)

theorem run_eq (m : Machine σ) {g : CommandLine.Given} (s : Session σ) (hg : g.command = .scan o) :
    s.run m g =
      match s.openLog m g.verbose o.logFile with
      | (.error f, s₁) => s₁.giveUp f
      | (.ok (), s₁) => s₁.scan m o := by
  unfold run
  rw [hg]
  rfl

/-- A scan with a result ends with a report, where a file can be written, if the report has a text
that can be written and only then. -/
theorem scan_reported_iff (hb : Begins m o s b c target)
    (hr : (s.runFrom m b c target).outcome = .ok r) (hd : (s.ran m b c target).Destined o b r path)
    (ha : (s.ran m b c target).site.Accepts path) :
    Reported o b r path (s.ran m b c target) (s.scan m o) ↔
      Printable o b r (s.ran m b c target) := by
  obtain ⟨format, hformat⟩ := format_of_begins hb
  rw [hb.scan_eq, hr]
  exact reported_iff hformat hd ha

/-- What an interrupt does is as before when a scan is over. A scan that halts has done no harm.
One with a result ends with a report, where a file can be written, if its text can be written and
only then. -/
theorem run_scan (m : Machine σ) (g : CommandLine.Given) (s : Session σ)
    (hg : g.command = .scan o) :
    (s.run m g).2.onInterrupt = s.onInterrupt ∧
    ∀ s₁, s.openLog m g.verbose o.logFile = (.ok (), s₁) →
      (Halts m o s₁ → Unharmed s₁ (s.run m g)) ∧
      ∀ b c target r path, Begins m o s₁ b c target → (s₁.runFrom m b c target).outcome = .ok r →
        (s₁.ran m b c target).Destined o b r path → (s₁.ran m b c target).site.Accepts path →
        (Reported o b r path (s₁.ran m b c target) (s.run m g) ↔
          Printable o b r (s₁.ran m b c target)) := by
  rw [run_eq m s hg]
  refine ⟨?_, fun s₁ hopen => ?_⟩
  · have hopen := openLog_onInterrupt m g.verbose o.logFile s
    split
    · rename_i f s₁ e
      rw [e] at hopen
      exact (quiet_giveUp s₁ f).onInterrupt.trans hopen
    · rename_i s₁ e
      rw [e] at hopen
      exact (scan_onInterrupt m o s₁).trans hopen
  · rw [hopen]
    exact ⟨Halts.unharmed, fun b c target r path => scan_reported_iff⟩

end

namespace Sample

open PerfReview.Sample

/-- A machine with a key and a network that reaches nobody. -/
def machine : Machine Unit where
  env := [("ANTHROPIC_API_KEY", "k")]
  network := ⟨fun st _ => (.unreachable "", st)⟩

/-- A scan of a folder that holds audit findings alone. The metrics are half of a surrogate pair. -/
def session : Session Unit where
  site := {
    disk := ⟨.folder [("p", .folder [
      ("a.json", .file (Text.encode "\x7b\"metrics\": \"\\ud800\"\x7d") 0o644)])]⟩
    working := "/p"
    home := "/" }
  clock := PerfReview.Sample.clock
  line := ⟨(), []⟩
  sink := ⟨Log.threshold false "", none⟩

def options : ScanOptions := { audit := some "a.json", output := some "r.md" }

def given : CommandLine.Given := ⟨false, .scan options, []⟩

/-- Where the scan writes its report, in which format and with which findings, if it comes to it. -/
def destination? : Except CommandFault (String × Option Format × Option Audit) := do
  let b ← session.basisFor options
  let c ← (session.informed b).clientFor machine options b.settings
  let target ← ((session.informed b).targetFor options b.settings).mapError .path
  let r ← (session.runFrom machine b c target).outcome.mapError fun _ => .noDelay
  let s := session.ran machine b c target
  let given ← (s.pathOf? options.output).mapError .path
  let path ← ((s.reportOf b r).place (outputFor options b.settings) s.site s.site.working
    given).mapError .path
  ((s.site.writeText path "").run s.site.disk).1.mapError fun _ => .noDelay
  return (path, Format.ofName? (outputFor options b.settings).format, b.audit)

theorem exists_destination : ∃ b c target r, Begins machine options session b c target ∧
    (session.runFrom machine b c target).outcome = .ok r ∧
    (session.ran machine b c target).Destined options b r "r.md" ∧
    (session.ran machine b c target).site.Accepts "r.md" ∧
    Format.ofName? (outputFor options b.settings).format = some .md ∧
    b.audit = some ⟨String.ofList [Text.ofCode 0xD800], []⟩ := by
  have h : destination?.toOption.map id =
      some ("r.md", some .md, some ⟨String.ofList [Text.ofCode 0xD800], []⟩) := by
    decide +kernel
  obtain ⟨v, hv, rfl⟩ := exists_of_map_eq_some h
  simp only [destination?, bind_eq_ok, mapError_eq_ok] at hv
  obtain ⟨b, hb, c, hc, target, ht, r, hr, given, hgiven, path, hplace, ⟨⟩, ha, hv⟩ := hv
  obtain ⟨hpath, hrest⟩ := Prod.mk.inj (Except.ok.inj hv)
  obtain ⟨hformat, haudit⟩ := Prod.mk.inj hrest
  rw [hpath] at hplace ha
  exact ⟨b, c, target, r, ⟨hb, hc, ht⟩, hr, ⟨given, hgiven, hplace⟩, ha, hformat, haudit⟩

theorem openLog_session : session.openLog machine given.verbose options.logFile =
    (.ok (), session) := rfl

theorem not_printable {b : Basis} {r : Result} {s : Session Unit}
    (hf : Format.ofName? (outputFor options b.settings).format = some .md)
    (ha : b.audit = some ⟨String.ofList [Text.ofCode 0xD800], []⟩) :
    ¬Printable options b r s := by
  have hfindings : b.audit.filter (!·.isEmpty) =
      some ⟨String.ofList [Text.ofCode 0xD800], []⟩ := by
    rw [ha]
    decide +kernel
  have hmem : Text.ofCode 0xD800 ∈
      (Text.strip (String.ofList [Text.ofCode 0xD800])).toList := by
    decide +kernel
  exact not_printable_of_metrics hf hfindings hmem (by decide +kernel)

end Sample

theorem run_scan_halfPair : Sample.given.command = .scan Sample.options ∧
    (Sample.session.run Sample.machine Sample.given).2.onInterrupt = .endsProgram ∧
    ∃ b c target r, Begins Sample.machine Sample.options Sample.session b c target ∧
      (Sample.session.runFrom Sample.machine b c target).outcome = .ok r ∧
      (Reported Sample.options b r "r.md" (Sample.session.ran Sample.machine b c target)
        (Sample.session.run Sample.machine Sample.given) ↔
          Printable Sample.options b r (Sample.session.ran Sample.machine b c target)) := by
  obtain ⟨b, c, target, r, hb, hr, hd, ha, -⟩ := Sample.exists_destination
  obtain ⟨hsame, hscan⟩ := run_scan Sample.machine Sample.given Sample.session rfl
  obtain ⟨-, hreported⟩ := hscan Sample.session Sample.openLog_session
  exact ⟨rfl, hsame, b, c, target, r, hb, hr, hreported b c target r "r.md" hb hr hd ha⟩

/-- A scan with a result and a place for its report, which is not there in the end. -/
theorem unreported_halfPair :
    Sample.session.openLog Sample.machine Sample.given.verbose Sample.options.logFile =
      (.ok (), Sample.session) ∧
    ∃ b c target r, Begins Sample.machine Sample.options Sample.session b c target ∧
      (Sample.session.runFrom Sample.machine b c target).outcome = .ok r ∧
      (Sample.session.ran Sample.machine b c target).Destined Sample.options b r "r.md" ∧
      (Sample.session.ran Sample.machine b c target).site.Accepts "r.md" ∧
      ¬Reported Sample.options b r "r.md" (Sample.session.ran Sample.machine b c target)
        (Sample.session.run Sample.machine Sample.given) := by
  obtain ⟨b, c, target, r, hb, hr, hd, ha, hf, haudit⟩ := Sample.exists_destination
  refine ⟨Sample.openLog_session, b, c, target, r, hb, hr, hd, ha, fun h => ?_⟩
  rw [run_eq Sample.machine Sample.session rfl, Sample.openLog_session] at h
  exact Sample.not_printable hf haudit ((scan_reported_iff hb hr hd ha).1 h)

end PerfReview.Session
