import PerfReview.Proofs.Run.Logs
import PerfReview.Proofs.Run.Mirror
import PerfReview.Proofs.Service.Answer
import PerfReview.Proofs.Service.Asking
import PerfReview.Proofs.Session.Scan

/-!
# The command line and the service agree

A scan on the command line and an order to the service that ask for the same review of a folder
without settings send the same requests in the same order, and reject the same limits and the same
missing folders. The report that the scan writes is read as the report that the service gives.

The program is not interrupted, and the path of the review has to be one that the file system can be
asked for: a scan ends with a message where it cannot, but the service foresees no such fault and ends
without an answer.
-/

namespace PerfReview

variable {σ : Type}

/-- There are no settings for a path, which leads to a folder without patterns of its own or to
nothing. -/
inductive Bare (site : Site) (path : String) : Prop where
  | folder {place : String} {entries : List (String × Node)} :
      (site.expand path >>= site.resolve) = .ok place →
      site.find? place = .ok (some (.folder entries)) → Settings.Unset site path [] → Bare site path
  | missing {place : String} {extra : List String} :
      (site.expand path >>= site.resolve) = .ok place → site.find? place = .ok none →
      Settings.Unset site path extra → Bare site path

section
variable {site : Site} {path place q : String}

theorem Scan.run_of_missing (hp : (site.expand path >>= site.resolve) = .ok place)
    (hn : site.find? place = .ok none) (sel : Selection) :
    Scan.run site path sel = .error (.missing path) := by
  unfold Scan.run
  rw [hp]
  simp only [Except.mapError, bind, Except.bind, hn]
  rfl

theorem Scan.run_of_folder {entries : List (String × Node)}
    (hp : (site.expand path >>= site.resolve) = .ok place)
    (hn : site.find? place = .ok (some (.folder entries))) (sel : Selection) :
    ∃ scan, Scan.run site path sel = .ok scan := by
  unfold Scan.run
  rw [hp]
  simp only [Except.mapError, bind, Except.bind, hn]
  exact ⟨_, rfl⟩

/-- The settings of a bare path are defaults, and with them a run is the one that the service has
with defaults of its own. -/
theorem Bare.load_runs [Yaml.Library] (σ : Type) (h : Bare site path) (hs : site.Homed)
    (hq : site.expand path = .ok q) :
    ∃ root extra, Settings.load site path = .ok { root, ignores := defaultIgnores ++ extra } ∧
      ∀ (s : Setup σ) firing clock includes adapter token,
        (Run.analyze s clock site path includes defaultIgnores adapter token).Retold q
          (Run.analyze { s with firing } clock site q includes (defaultIgnores ++ extra) adapter
            token) := by
  cases h with
  | folder hp hn hunset =>
    obtain ⟨root, hload⟩ := hunset.load
    refine ⟨root, [], hload, fun s firing clock includes adapter token => ?_⟩
    rw [List.append_nil]
    exact Run.analyze_expand hs hq clock includes defaultIgnores adapter token
  | @missing place extra hp hn hunset =>
    obtain ⟨root, hload⟩ := hunset.load
    refine ⟨root, extra, hload, fun s firing clock includes adapter token => ?_⟩
    have hhere := Scan.run_of_missing hp hn
      ⟨includes, defaultIgnores, s.limits.bounds.maxFileSize⟩
    have hthere := (Scan.run_expand hs hq _).trans <| congrArg (Except.mapError _) <|
      Scan.run_of_missing hp hn ⟨includes, defaultIgnores ++ extra, s.limits.bounds.maxFileSize⟩
    obtain ⟨ha, hc, ho⟩ := Run.analyze_of_error hhere clock adapter token
    obtain ⟨ha', hc', ho'⟩ :=
      Run.analyze_of_error (s := { s with firing }) hthere clock adapter token
    exact ⟨ha'.trans ha.symm, hc'.trans hc.symm, by rw [ho, ho']; rfl⟩

/-- A run over a bare path that finds no folder finds nothing at all. -/
theorem Bare.missing_of_target (h : Bare site path) {s : Setup σ} {clock : Clock}
    {includes ignores : List String} {adapter : Adapter σ} {token : Token} {f : TargetFault}
    (hf : (Run.analyze s clock site path includes ignores adapter token).outcome =
      .error (.target f)) : f = .missing path ∧
        ∃ place, (site.expand path >>= site.resolve) = .ok place ∧ site.find? place = .ok none := by
  cases h with
  | folder hp hn _ =>
    obtain ⟨scan, hscan⟩ := Scan.run_of_folder hp hn
      ⟨includes, ignores, s.limits.bounds.maxFileSize⟩
    exact absurd hf (Run.outcome_ne_target clock adapter token hscan f)
  | missing hp hn _ =>
    have hscan := Scan.run_of_missing hp hn ⟨includes, ignores, s.limits.bounds.maxFileSize⟩
    have hmissing := (Run.analyze_of_error hscan clock adapter token).2.2
    rw [hf] at hmissing
    cases hmissing
    exact ⟨rfl, _, hp, hn⟩

theorem Bare.exists_expand (h : Bare site path) : ∃ q, site.expand path = .ok q := by
  cases h with
  | folder hp _ _ | missing hp _ _ =>
    obtain ⟨q, hq, -⟩ := Settings.bind_eq_ok.1 hp
    exact ⟨q, hq⟩

end

namespace Session

open Settings (bind_eq_ok)

variable {m : Machine σ} {s : Session σ} {w : Wish} {c : Client} {verbose : Bool}
  {audit output : Option String}

/-! ## What the options say -/

theorem settingsFor_options [Yaml.Library] (h : w.path ≠ "") :
    s.settingsFor (w.options verbose audit output) =
      (Settings.load s.site w.path).mapError .settings := by
  have hfilled : Text.filled (w.options verbose audit output).path = some w.path :=
    Text.filled_of_ne_empty h
  rw [settingsFor, hfilled]
  rfl

theorem targetFor_options (h : w.path ≠ "") {q : String} (hq : s.site.expand w.path = .ok q)
    (settings : Settings) : s.targetFor (w.options verbose audit output) settings = .ok q := by
  have hfilled : Text.filled (w.options verbose audit output).path = some w.path :=
    Text.filled_of_ne_empty h
  rw [targetFor, pathOf?, hfilled, Option.mapM_some, hq]
  rfl

section
variable [Json.Room]

/-! ## Ending alike -/

/-- A scan has written the report that an answer of the service carries. -/
structure Delivered (r : Result) (path : String) (answer : Json) (e : Finish × Session σ) :
    Prop where
  finish : e.1 = .exit (if r.cancelled then 130 else 0)
  written : ∃ text place mode,
    e.2.site.locate path = .ok (place, .file (Text.encode text) mode) ∧
      Service.Tells answer.dense text

/-- How a scan and the service end that are asked for the same review, where `run` is the run with
given limits. -/
inductive Agree (w : Wish) (output : Option String) (site : Site)
    (run : Limits → Progress (Client.Line σ)) (e : Finish × Session σ) : Service.Reply → Prop where
  /-- Both reject the limits. -/
  | limits {f : LimitsFault} : ({} : Limits).override w.limits = .error f → e.1 = .exit 1 →
      Agree w output site run e (.failure 400 f.message)
  /-- Both reject the path, which leads to nothing. -/
  | missing {limits : Limits} {place : String} : ({} : Limits).override w.limits = .ok limits →
      (site.expand w.path >>= site.resolve) = .ok place → site.find? place = .ok none →
      e.1 = .exit 1 → Agree w output site run e (.failure 404 (TargetFault.missing w.path).message)
  /-- The run has no result, because of an answer of the model or of a wait. -/
  | failed {limits : Limits} {f : RunFault} : ({} : Limits).override w.limits = .ok limits →
      (run limits).outcome = .error f → (∀ t, f ≠ .target t) → e.1 = .exit 1 →
      Agree w output site run e (.crash (.run f))
  /-- Both have the same report. The service answers exactly if the scan writes it. -/
  | reported {limits : Limits} {r : Result} {report : Report} :
      ({} : Limits).override w.limits = .ok limits → (run limits).outcome = .ok r →
      report = ⟨r, some limits, w.audit, (run limits).clock.now⟩ →
      (report.duration.toJson.Finite →
        (∀ v, (r.findings.ofSeverity v).length < 10 ^ Number.maxDigits) →
        ∀ given path, (Text.filled output).mapM site.expand = .ok given →
        report.place { format := "json" } site site.working given = .ok path →
        site.Accepts path →
        (∃ answer, Service.success report = .json 200 answer ∧ Delivered r path answer e) ∨
        ((∃ f, Service.success report = .crash f) ∧ ∃ f, e.1 = .crash f)) →
      Agree w output site run e (Service.success report)

/-! ## The scan -/

theorem runFrom_eq (hm : m.interrupts = {}) (h : s.sink.file = none) (b : Basis) (target : String) :
    s.runFrom m b c target =
      let setup : Setup (Client.Line σ) :=
        { oracle := c.oracle m.network, limits := b.limits, audit := b.audit }
      Run.analyze { setup with firing := [interruptLog] } s.clock s.site target b.settings.includes
        b.settings.ignores ⟨s.line, [], false⟩ {} := by
  unfold runFrom runOf informed
  rw [log_eq h, hm]
  rfl

theorem ran_eq (h : s.sink.file = none) (b : Basis) (target : String) :
    let p := s.runFrom m b c target
    ∃ err, s.ran m b c target = { s with line := p.adapter.state, clock := p.clock, err } := by
  unfold ran informed
  dsimp only
  rw [log_eq h, log_eq (by exact h)]
  exact ⟨_, rfl⟩

/-- A scan with a report in place ends as the service answers. -/
theorem delivered_or_crash {b : Basis} {r : Result} {given : Option String} {path : String}
    (hsink : s.sink.file = none) (hsettings : b.settings.output = {})
    (hk : (s.reportOf b r).Keyed) (hm : (s.reportOf b r).Measured)
    (hgiven : s.pathOf? output = .ok given)
    (hplace : (s.reportOf b r).place { format := "json" } s.site s.site.working given = .ok path)
    (ha : s.site.Accepts path) :
    let e := s.report (w.options verbose audit output) b r
    (∃ answer, Service.success (s.reportOf b r) = .json 200 answer ∧ Delivered r path answer e) ∨
      ((∃ f, Service.success (s.reportOf b r) = .crash f) ∧ ∃ f, e.1 = .crash f) := by
  have houtput : outputFor (w.options verbose audit output) b.settings = { format := "json" } := by
    simp only [outputFor, hsettings]
    rfl
  have hformat : Format.ofName? (outputFor (w.options verbose audit output) b.settings).format =
      some .json := by
    rw [houtput]
    rfl
  have hd : s.Destined (w.options verbose audit output) b r path :=
    ⟨given, hgiven, by rw [houtput]; exact hplace⟩
  obtain ⟨hr, hprintable⟩ | ⟨hcrash, hnone⟩ := report_cases hformat hd ha
  · obtain ⟨answer, hanswer⟩ := (Service.answers_iff hm).2 ((printable_iff hformat).1 hprintable)
    obtain ⟨format, text, disk, place, mode, _, hf, hrender, hloc, -, hsite, -⟩ := hr.written
    cases hformat.symm.trans hf
    obtain ⟨rfl, -, -⟩ := Service.success_eq_json_iff.1 hanswer
    have hw := Report.writable_of_render hrender
    obtain ⟨hdocument, -⟩ := Report.read_of_writable hk hw
    have htext : text = (s.reportOf b r).document := Except.ok.inj (hrender.symm.trans hdocument)
    refine .inl ⟨_, hanswer, hr.finish, text, place, mode, ?_, htext ▸ Service.tells hk hm hw⟩
    rw [hsite, log_eq (by exact hsink)]
    exact hloc
  · refine .inr ⟨?_, hcrash⟩
    obtain ⟨answer, hanswer⟩ | hfault := Service.success_cases (s.reportOf b r)
    · have htext := (Service.answers_iff hm).1 ⟨answer, hanswer⟩
      exact absurd ((printable_iff hformat).2 htext) hnone
    · exact hfault

/-- The run of the review with given limits, on the network and the clock of the session. -/
def reviewed (m : Machine σ) (c : Client) (w : Wish) (s : Session σ) (limits : Limits) :
    Progress (Client.Line σ) :=
  Service.runOf (c.oracle m.network) limits s.site ⟨s.line, s.clock⟩ w.order

/-- A scan starts from what the wish asks for. -/
structure Basis.Serves (b : Basis) (w : Wish) : Prop where
  limits : ({} : Limits).override w.limits = .ok b.limits
  output : b.settings.output = {}
  audit : b.audit = w.audit

variable {b : Basis} {q : String}

/-- A scan whose run has a result ends as the service answers with that result. -/
theorem agree_of_result {run : Limits → Progress (Client.Line σ)} {r : Result}
    (hsink : s.sink.file = none) (hb : b.Serves w)
    (hsections : ∀ a ∈ w.audit, (a.sections.map (·.1)).Nodup) (hfinite : b.limits.toJson.Finite)
    (hrun : (run b.limits).Retold q (s.runFrom m b c q)) (hr : (run b.limits).outcome = .ok r)
    (hmirrored : r.Mirrored) :
    Agree w output s.site run ((s.ran m b c q).report (w.options verbose audit output) b r)
      (Service.success ⟨r, some b.limits, w.audit, (run b.limits).clock.now⟩) := by
  obtain ⟨err, hran⟩ := ran_eq (m := m) (c := c) hsink b q
  have hreport : (s.ran m b c q).reportOf b r =
      ⟨r, some b.limits, w.audit, (run b.limits).clock.now⟩ := by
    rw [reportOf, hb.audit, hran, hrun.clock]
  have hk : ((s.ran m b c q).reportOf b r).Keyed := by
    rw [hreport]
    exact ⟨hmirrored.keys ▸ hmirrored.nodup, hsections⟩
  refine .reported hb.limits hr rfl fun hduration hcounts given path hgiven hplace ha => ?_
  have hm : ((s.ran m b c q).reportOf b r).Measured := by
    rw [hreport]
    exact ⟨hduration, fun l hl => by cases hl; exact hfinite, hcounts⟩
  rw [← hreport] at hplace ⊢
  have hgiven' : (s.ran m b c q).pathOf? output = .ok given := by
    rw [hran]
    exact hgiven
  refine delivered_or_crash (by rw [hran]; exact hsink) hb.output hk hm hgiven' ?_ ?_
  · rw [hran] at hplace ⊢
    exact hplace
  · rw [hran]
    exact ha

variable [Yaml.Library]

theorem basisFor_options {root : String} {extra : List String} {file : Option String}
    (verbose : Bool) (output : Option String) (hpath : w.path ≠ "") (htimely : w.Timely)
    (hload : Settings.load s.site w.path = .ok { root, ignores := defaultIgnores ++ extra })
    (hfile : (Text.filled audit).mapM s.site.expand = .ok file)
    (haudit : file.mapM (Audit.load s.site) = .ok w.audit) :
    s.basisFor (w.options verbose audit output) =
      match ({} : Limits).override w.limits with
      | .error f => .error (.limits f)
      | .ok limits =>
        .ok ⟨{ root, ignores := defaultIgnores ++ extra }, limits, file, w.audit⟩ := by
  have hfileFor : s.auditFileFor (w.options verbose audit output)
      { root, ignores := defaultIgnores ++ extra } = .ok file := by
    simp only [auditFileFor, pathOf?, Wish.options, hfile, Except.map, Option.or_none]
  unfold basisFor
  rw [settingsFor_options hpath, hload]
  simp only [Except.mapError, bind, Except.bind, Wish.limitsFor_options htimely, hfileFor]
  cases ({} : Limits).override w.limits with
  | error f => rfl
  | ok limits =>
    simp only [haudit]
    rfl

/-- A scan that begins ends as the service answers, if the two have the same run. -/
theorem begun_agrees (run : Limits → Progress (Client.Line σ)) (hsink : s.sink.file = none)
    (hbegins : Begins m (w.options verbose audit output) s b c q) (hb : b.Serves w)
    (hsections : ∀ a ∈ w.audit, (a.sections.map (·.1)).Nodup) (hfinite : b.limits.toJson.Finite)
    (hrun : (run b.limits).Retold q (s.runFrom m b c q))
    (htarget : ∀ f, (run b.limits).outcome = .error (.target f) → f = .missing w.path ∧
      ∃ place, (s.site.expand w.path >>= s.site.resolve) = .ok place ∧ s.site.find? place = .ok none)
    (hmirrored : ∀ r, (run b.limits).outcome = .ok r → r.Mirrored) :
    let p := run b.limits
    (s.scan m (w.options verbose audit output)).2.line = p.adapter.state ∧
      Agree w output s.site run (s.scan m (w.options verbose audit output))
        (Service.replyTo b.limits w.audit p.clock.now p.outcome) := by
  have hline : (s.ran m b c q).line = (run b.limits).adapter.state := by
    obtain ⟨err, hran⟩ := ran_eq (m := m) (c := c) hsink b q
    rw [hran, hrun.adapter]
  dsimp only
  rw [hbegins.scan_eq, hrun.outcome]
  cases ho : (run b.limits).outcome with
  | error f =>
    refine ⟨hline, ?_⟩
    cases f with
    | target f =>
      obtain ⟨rfl, place, hplace, hnone⟩ := htarget f ho
      exact .missing hb.limits hplace hnone rfl
    | digits f => exact .failed hb.limits ho (by simp) rfl
    | wait f => exact .failed hb.limits ho (by simp) rfl
  | ok r =>
    exact ⟨(report_keeps _ _ _ _).2.trans hline,
      agree_of_result hsink hb hsections hfinite hrun ho (hmirrored r ho)⟩

/-! ## The request -/

variable [Service.Coercion]

/-- A request for a review comes to a review of the order in its body. -/
theorem answer_of_asked {body : String} {state : Service.State (Client.Line σ)} {site : Site}
    (hw : w.AskedBy body) (hc : Client.make? m.env site {} = .ok c) :
    Service.answer ⟨Service.connection m.env site m.network, site⟩ state
      ⟨"POST", "/analyze", body⟩ =
    Service.review ⟨Service.connection m.env site m.network, site⟩ (c.oracle m.network) state
      w.order := by
  have hroute : Service.Route.ofPath? "/analyze" = some .analyze := by decide +kernel
  have hmethod : "POST" ∈ Service.Route.analyze.methods := by decide
  have hconnect : Service.connection m.env site m.network = .ok (c.oracle m.network) := by
    simp only [Service.connection, hc, Except.map]
  obtain ⟨j, hj, ho⟩ := hw
  simp only [Service.answer, hroute, hmethod, not_true, if_false, Service.analyze, hj, hconnect, ho]

theorem scan_agrees {body : String} (hquiet : m.interrupts = {}) (hsink : s.sink.file = none)
    (hasked : w.AskedBy body)
    (htold : Audit.Told s.site audit w.audit) (hpath : w.path ≠ "") (hbare : Bare s.site w.path)
    (hhomed : s.site.Homed) (htidy : s.site.disk.top.Tidy) (htimely : w.Timely)
    (hwritable : ∀ l ∈ w.limits, l.2.Writable)
    (hsections : ∀ a ∈ w.audit, (a.sections.map (·.1)).Nodup)
    (hc : Client.make? m.env s.site {} = .ok c) :
    let e := s.scan m (w.options verbose audit output)
    let a := Service.answer ⟨Service.connection m.env s.site m.network, s.site⟩ ⟨s.line, s.clock⟩
      ⟨"POST", "/analyze", body⟩
    e.2.line = a.2.model ∧ Agree w output s.site (s.reviewed m c w) e a.1 := by
  dsimp only
  obtain ⟨file, hfile, haudit⟩ := htold.load
  obtain ⟨q, hq⟩ := hbare.exists_expand
  obtain ⟨root, extra, hload, hruns⟩ := hbare.load_runs (Client.Line σ) hhomed hq
  have hbasis := basisFor_options verbose output hpath htimely hload hfile haudit
  rw [answer_of_asked hasked hc]
  cases hlimits : ({} : Limits).override w.limits with
  | error f =>
    have hf : f ≠ .unwritable := fun e => Limits.override_ne_unwritable (fun _ => Wish.mem_names)
      Limits.writable_standard hwritable (e ▸ hlimits)
    rw [hlimits] at hbasis
    rw [Service.review_of_limitsFault hlimits hf, scan_of_basis m hbasis]
    exact ⟨rfl, .limits hlimits rfl⟩
  | ok limits =>
    rw [hlimits] at hbasis
    rw [Service.review_of_limits hlimits]
    have hsite : ∀ b, (s.informed b).site = s.site := fun b => by
      rw [informed, log_eq hsink]
      rfl
    have hbegins : Begins m (w.options verbose audit output) s
        ⟨{ root, ignores := defaultIgnores ++ extra }, limits, file, w.audit⟩ c q := by
      refine ⟨hbasis, ?_, targetFor_options hpath (by rw [hsite]; exact hq) _⟩
      rw [clientFor, hsite]
      exact congrArg (Except.mapError _) hc
    have hrun : (s.reviewed m c w limits).Retold q (s.runFrom m
        ⟨{ root, ignores := defaultIgnores ++ extra }, limits, file, w.audit⟩ c q) := by
      rw [runFrom_eq hquiet hsink]
      exact hruns { oracle := c.oracle m.network, limits, audit := w.audit } [interruptLog] s.clock
        defaultIncludes ⟨s.line, [], false⟩ {}
    have hfinite : limits.toJson.Finite :=
      Limits.finite_of_override (fun _ => Wish.mem_names) Limits.finite_standard
        (Wish.finite_limits w) hlimits
    have htarget : ∀ f, (s.reviewed m c w limits).outcome = .error (.target f) →
        f = .missing w.path ∧ ∃ place, (s.site.expand w.path >>= s.site.resolve) = .ok place ∧
          s.site.find? place = .ok none := fun f => hbare.missing_of_target
    have hmirrored : ∀ r, (s.reviewed m c w limits).outcome = .ok r → r.Mirrored :=
      fun r => Run.mirrored_of_outcome htidy
    -- Against the goal, the basis would be found only by unfolding both runs.
    have hagree := begun_agrees (s.reviewed m c w) hsink hbegins ⟨hlimits, rfl, rfl⟩ hsections
      hfinite hrun htarget hmirrored
    exact hagree

/-- A scan and a request to the service that ask for the same review of a bare path send the same
requests and end alike. -/
theorem run_agrees {g : CommandLine.Given} {body : String}
    (hg : g.command = .scan (w.options verbose audit output)) (hquiet : m.interrupts = {})
    (hasked : w.AskedBy body)
    (htold : Audit.Told s.site audit w.audit) (hpath : w.path ≠ "") (hbare : Bare s.site w.path)
    (hhomed : s.site.Homed) (htidy : s.site.disk.top.Tidy) (htimely : w.Timely)
    (hwritable : ∀ l ∈ w.limits, l.2.Writable)
    (hsections : ∀ a ∈ w.audit, (a.sections.map (·.1)).Nodup)
    (hc : Client.make? m.env s.site {} = .ok c) :
    let e := s.run m g
    let a := Service.answer ⟨Service.connection m.env s.site m.network, s.site⟩ ⟨s.line, s.clock⟩
      ⟨"POST", "/analyze", body⟩
    e.2.line = a.2.model ∧ Agree w output s.site (s.reviewed m c w) e a.1 := by
  dsimp only
  have hopen : s.openLog m g.verbose (w.options verbose audit output).logFile = (.ok (), { s with
      sink := ⟨Log.threshold g.verbose ((Assoc.get? m.env thresholdVariable).getD ""), none⟩ }) :=
    rfl
  rw [run_eq m s hg, hopen]
  exact scan_agrees (s := { s with sink := ⟨Log.threshold g.verbose
    ((Assoc.get? m.env thresholdVariable).getD ""), none⟩ }) hquiet rfl hasked htold hpath hbare hhomed
    htidy htimely hwritable hsections hc

end

/-! ## A path that cannot be used -/

namespace Sample

/-- A folder with one script, beside a file with findings. -/
def besideFindings : Session Unit where
  site := {
    disk := (Disk.empty.place "/p/a.js" (.file [120, 10] 0o644)).place "/m.json"
      (.file (Text.encode "\x7b\"metrics\": \"m\"\x7d") 0o644)
    working := "/"
    home := "/" }
  clock := PerfReview.Sample.clock
  line := ⟨(), []⟩

/-- A review of the folder with these findings and limits. -/
def wish : Wish := { path := "/p", maxFiles := some 1, maxSize := some 1, audit := some ⟨"m", []⟩ }

def asking : Json := .object [("path", .text "/p"), ("max_files", .int 1),
  ("max_file_size", .int 1024), ("audit", Audit.toJson ⟨"m", []⟩)]

theorem askedBy_asking : wish.AskedBy asking.dense := by
  have haudit : Json.Shaped 984 (Audit.toJson ⟨"m", []⟩) :=
    Report.shaped_audit 982 List.nodup_nil
  have hwritable : asking.Writable := by
    rw [asking, Json.writable_object]
    simp only [List.forall_mem_cons, List.not_mem_nil, false_implies, implies_true, and_true]
    exact ⟨rfl, Json.writable_of_lt (n := 1) (by decide),
      Json.writable_of_lt (n := 1024) (by decide), rfl⟩
  exact Wish.askedBy_dense (.object (by simp) (by simp [haudit])) hwritable rfl (by decide +kernel)

theorem tidy_besideFindings : besideFindings.site.disk.top.Tidy := by
  refine Disk.place_tidy ?_ _ .file
  exact Disk.place_tidy (d := .empty) Node.tidy_nil _ .file

theorem homed_besideFindings : besideFindings.site.Homed :=
  Site.homed_of_forall (by decide) (by decide)

theorem told_besideFindings : Audit.Told besideFindings.site (some "/m.json") wish.audit := by
  have htext : besideFindings.site.readText "/m.json" = .ok "\x7b\"metrics\": \"m\"\x7d" := by
    decide +kernel
  have hread : (Json.read "\x7b\"metrics\": \"m\"\x7d").toOption.map (fun j =>
      (Service.Order.readAudit j, (j.field? "audits").isSome)) = some (some ⟨"m", []⟩, false) := by
    decide +kernel
  obtain ⟨j, hj, e⟩ := exists_of_map_eq_some hread
  obtain ⟨haudit, hown⟩ := Prod.mk.inj e
  exact .file rfl (by decide +kernel) htext hj haudit (by simp [hown])

theorem bare_besideFindings : Bare besideFindings.site wish.path := by
  have hplace : (besideFindings.site.expand "/p" >>= besideFindings.site.resolve) = .ok "/p" := by
    decide +kernel
  have hfolder : (besideFindings.site.find? "/p").toOption.map (·.map (·.isFolder)) =
      some (some true) := by
    decide +kernel
  obtain ⟨n, hn, e⟩ := exists_of_map_eq_some hfolder
  obtain ⟨n, rfl, e⟩ := Option.map_eq_some_iff.1 e
  have hignores : (Settings.loadIgnores besideFindings.site "/p").toOption.map id = some [] := by
    decide +kernel
  obtain ⟨_, hextra, rfl⟩ := exists_of_map_eq_some hignores
  have hunset : Settings.Unset besideFindings.site "/p" [] :=
    ⟨"/p/.perflens.yml", "/p", by decide +kernel, by decide +kernel, by decide +kernel, hextra⟩
  cases n with
  | folder entries => exact .folder hplace hn hunset
  | file | link => cases e

theorem client_besideFindings : ∃ c, Client.make? machine.env besideFindings.site {} = .ok c :=
  exists_of_isSome (by decide +kernel)

def givenFor (w : Wish) (audit : Option String) : CommandLine.Given :=
  ⟨false, .scan (w.options false audit (some "r.json")), []⟩

def code? : Finish → Option Nat
  | .exit n => some n
  | .crash _ => none

theorem eq_exit_of_code? {f : Finish} {n : Nat} (h : code? f = some n) : f = .exit n := by
  cases f with
  | exit => exact congrArg Finish.exit (Option.some.inj h)
  | crash => cases h

def crashes : Service.Reply → Bool
  | .crash _ => true
  | _ => false

theorem ne_failure_of_crashes {a : Service.Reply} (h : crashes a = true) (status : Nat)
    (reason : String) : a ≠ .failure status reason := by
  rintro rfl
  cases h

/-- A review of a path that no file system can be asked for. -/
def nulWish : Wish := { path := "/\x00" }

def nulAsking : Json := .object [("path", .text "/\x00")]

theorem askedBy_nulAsking : nulWish.AskedBy nulAsking.dense := by
  have hwritable : nulAsking.Writable := by
    rw [nulAsking, Json.writable_object]
    simp only [List.forall_mem_cons, List.not_mem_nil, false_implies, implies_true, and_true]
    rfl
  exact Wish.askedBy_dense (.object (by simp) (by simp)) hwritable rfl (by decide +kernel)

end Sample

theorem run_agrees_besideFindings : Sample.wish.path ≠ "" ∧
    let s := Sample.besideFindings
    let e := s.run Sample.machine (Sample.givenFor Sample.wish (some "/m.json"))
    let a := Service.answer ⟨Service.connection Sample.machine.env s.site Sample.machine.network,
      s.site⟩ ⟨s.line, s.clock⟩ ⟨"POST", "/analyze", Sample.asking.dense⟩
    ∃ c, Client.make? Sample.machine.env s.site {} = .ok c ∧ e.2.line = a.2.model ∧
      Agree Sample.wish (some "r.json") s.site (s.reviewed Sample.machine c Sample.wish) e a.1 := by
  have hwritable : ∀ l ∈ Sample.wish.limits, l.2.Writable := by
    rw [show Sample.wish.limits = [("max_files", .int 1), ("max_file_size", .int 1024)] from rfl]
    simp only [List.forall_mem_cons, List.not_mem_nil, false_implies, implies_true, and_true]
    exact ⟨Json.writable_of_lt (n := 1) (by decide), Json.writable_of_lt (n := 1024) (by decide)⟩
  obtain ⟨c, hc⟩ := Sample.client_besideFindings
  refine ⟨by decide, c, hc, run_agrees rfl rfl Sample.askedBy_asking Sample.told_besideFindings
    (by decide) Sample.bare_besideFindings Sample.homed_besideFindings
    Sample.tidy_besideFindings nofun hwritable ?_ hc⟩
  rintro a ⟨⟩
  exact List.nodup_nil

/-- A review of a path to nothing, which a scan rejects and the service leaves without an answer. -/
theorem unanswered_nul :
    let s := Sample.besideFindings
    Sample.nulWish.AskedBy Sample.nulAsking.dense ∧
    s.site.find? Sample.nulWish.path = .ok none ∧
    (s.run Sample.machine (Sample.givenFor Sample.nulWish none)).1 = .exit 1 ∧
    ∀ reason, (Service.answer ⟨Service.connection Sample.machine.env s.site Sample.machine.network,
      s.site⟩ ⟨s.line, s.clock⟩ ⟨"POST", "/analyze", Sample.nulAsking.dense⟩).1 ≠
        .failure 404 reason := by
  refine ⟨Sample.askedBy_nulAsking, ?_, ?_, fun reason => ?_⟩
  · have hnone : (Sample.besideFindings.site.find? Sample.nulWish.path).toOption.map (·.isNone) =
        some true := by
      decide +kernel
    obtain ⟨n, hn, e⟩ := exists_of_map_eq_some hnone
    rw [hn, Option.isNone_iff_eq_none.1 e]
  · exact Sample.eq_exit_of_code? (by decide +kernel)
  · exact Sample.ne_failure_of_crashes (by decide +kernel) 404 reason

end Session

end PerfReview
