import PerfReview.Proofs.Run.Whole

/-!
# Two runs that differ in one call

Two runs over one folder whose models differ in the outcome of one call agree on everything but what
this call gave: they send the same requests, wait as long, and find the same in all files that were
not sent with it.
-/

namespace PerfReview

variable {σ : Type}

/-- The model whose outcomes are scripted by the number of the call and the request. -/
def Oracle.ofScript (script : Nat → Request → Ending) : Oracle Nat where
  call n r := (script n r, n + 1)

/-! ## Calls -/

/-- The calls for batches are cut around the one for the batch at `k`, if there is one. -/
structure Exchange.Cut (n k : Nat) (bs : List Batch) (before mid after cs : List Exchange) :
    Prop where
  eq : cs = before ++ mid ++ after
  batches : mid.map (·.batch) = bs[k]?.toList
  numbers : ∀ c ∈ mid, c.number = n + k

section
variable {script script' : Nat → Request → Ending} {audit : Option Audit} {st k n : Nat}
  {bs : List Batch}

theorem Oracle.calls_ofScript_congr (h : ∀ n r, st ≤ n → script n r = script' n r) :
    (ofScript script).calls audit st n bs = (ofScript script').calls audit st n bs := by
  induction bs generalizing st n with
  | nil => rfl
  | cons b bs ih =>
    have hrest : (ofScript script).calls audit (st + 1) (n + 1) bs =
        (ofScript script').calls audit (st + 1) (n + 1) bs :=
      ih fun m r hm => h m r (by omega)
    simp only [calls, ofScript] at hrest ⊢
    rw [h st _ (Nat.le_refl st), hrest]

/-- The calls of two scripts that differ in one outcome differ in one call. -/
theorem Oracle.exists_cut (audit : Option Audit) (n : Nat) (bs : List Batch)
    (h : ∀ n r, n ≠ st + k → script n r = script' n r) :
    ∃ before mid mid' after,
      Exchange.Cut n k bs before mid after ((ofScript script).calls audit st n bs) ∧
      Exchange.Cut n k bs before mid' after ((ofScript script').calls audit st n bs) := by
  induction bs generalizing st n k with
  | nil => exact ⟨[], [], [], [], ⟨rfl, rfl, by simp⟩, ⟨rfl, rfl, by simp⟩⟩
  | cons b bs ih =>
    cases k with
    | zero =>
      have hrest : (ofScript script).calls audit (st + 1) (n + 1) bs =
          (ofScript script').calls audit (st + 1) (n + 1) bs :=
        calls_ofScript_congr fun m r hm => h m r (by omega)
      refine ⟨[], [_], [_], (ofScript script).calls audit (st + 1) (n + 1) bs, ⟨rfl, ?_, ?_⟩,
        ⟨congrArg (_ :: ·) hrest.symm, ?_, ?_⟩⟩
      · rfl
      · exact List.forall_mem_singleton.2 rfl
      · rfl
      · exact List.forall_mem_singleton.2 rfl
    | succ k =>
      have hlater : ∀ m r, m ≠ st + 1 + k → script m r = script' m r :=
        fun m r hm => h m r (by omega)
      obtain ⟨before, mid, mid', after, ⟨heq, hbatches, hnumbers⟩, heq', hbatches', hnumbers'⟩ :=
        ih (n + 1) hlater
      have hfirst : script st (Request.ofBatch b audit) = script' st (Request.ofBatch b audit) :=
        h st _ (by omega)
      have hnumber : n + 1 + k = n + (k + 1) := by omega
      rw [hnumber] at hnumbers hnumbers'
      refine ⟨_ :: before, mid, mid', after, ⟨congrArg (_ :: ·) heq, hbatches, hnumbers⟩,
        ⟨?_, hbatches', hnumbers'⟩⟩
      simp only [calls, ofScript] at heq' ⊢
      rw [heq', hfirst]
      rfl

end

namespace Exchange

variable {n k : Nat} {bs : List Batch} {before mid after cs : List Exchange}

theorem filterMap_failure?_sublist (cs : List Exchange) :
    (cs.filterMap (·.failure?)).Sublist (cs.map fun c => c.batch.label c.number) := by
  induction cs with
  | nil => exact .slnil
  | cons c cs ih =>
    rw [List.filterMap_cons, List.map_cons, failure?]
    cases c.ending.isBare with
    | true => exact ih.cons_cons _
    | false => exact ih.cons _

/-- The labels without the one of the call that is cut out. -/
theorem Cut.failures (h : Cut n k bs before mid after cs) : ∃ labels,
    cs.filterMap (·.failure?) =
      before.filterMap (·.failure?) ++ labels ++ after.filterMap (·.failure?) ∧
    labels.Sublist (bs[k]?.toList.map (·.label (n + k))) := by
  refine ⟨mid.filterMap (·.failure?), ?_, ?_⟩
  · rw [h.eq, List.filterMap_append, List.filterMap_append]
  · have hlabels : mid.map (fun c => c.batch.label c.number) =
        bs[k]?.toList.map (·.label (n + k)) := by
      rw [← h.batches, List.map_map]
      exact List.map_congr_left fun c hc => by rw [h.numbers c hc]; rfl
    rw [← hlabels]
    exact filterMap_failure?_sublist mid

/-- The issues of a severity that the answers to calls give. -/
def issues (root : String) (v : Severity) (cs : List Exchange) : List Issue :=
  (cs.filterMap (·.response? root)).flatMap fun a => a.issues.filter (·.severity = v)

theorem issues_append (root : String) (v : Severity) (cs ds : List Exchange) :
    issues root v (cs ++ ds) = issues root v cs ++ issues root v ds := by
  simp only [issues, List.filterMap_append, List.flatMap_append]

theorem file_mem_of_mem_issues {root : String} {v : Severity} {i : Issue}
    (h : i ∈ issues root v cs) : ∃ c ∈ cs, i.file ∈ c.batch.paths := by
  obtain ⟨a, ha, hi⟩ := List.mem_flatMap.1 h
  obtain ⟨c, hc, hresponse⟩ := List.mem_filterMap.1 ha
  obtain ⟨text, -, rfl⟩ := Option.map_eq_some_iff.1 hresponse
  exact ⟨c, hc, Response.file_mem_of_issue (List.mem_of_mem_filter hi)⟩

/-- The call that is cut out gives issues of its own files alone. -/
theorem Cut.issues (h : Cut n k bs before mid after cs) (root : String) (v : Severity)
    {keep : Issue → Bool} (hkeep : ∀ i, keep i = true → i.file ∉ bs[k]?.toList.flatMap (·.paths)) :
    (issues root v cs).filter keep =
      (Exchange.issues root v before ++ Exchange.issues root v after).filter keep := by
  have hmid : (Exchange.issues root v mid).filter keep = [] := by
    refine List.filter_eq_nil_iff.2 fun i hi hk => hkeep i hk ?_
    obtain ⟨c, hc, hfile⟩ := file_mem_of_mem_issues hi
    rw [← h.batches]
    exact List.mem_flatMap.2 ⟨c.batch, List.mem_map_of_mem hc, hfile⟩
  rw [h.eq, issues_append, issues_append, List.filter_append, List.filter_append, hmid,
    List.append_nil, List.filter_append]

end Exchange

/-! ## Results -/

theorem Findings.ext_ofSeverity {f f' : Findings} (h : ∀ v, f.ofSeverity v = f'.ofSeverity v) :
    f = f' := by
  obtain ⟨critical, warnings, suggestions⟩ := f
  obtain ⟨critical', warnings', suggestions'⟩ := f'
  have hc : critical = critical' := h .critical
  have hw : warnings = warnings' := h .warning
  have hs : suggestions = suggestions' := h .suggestion
  rw [hc, hw, hs]

/-- Mirrored results that find the same in a file agree on the file. -/
theorem Result.Mirrored.get?_byFile_eq {r r' : Result} (h : r.Mirrored) (h' : r'.Mirrored)
    (ha : r.analyzed = r'.analyzed) {path : String}
    (hf : ∀ v, (r.findings.ofSeverity v).filter (·.file = path) =
      (r'.findings.ofSeverity v).filter (·.file = path)) :
    Assoc.get? r.byFile path = Assoc.get? r'.byFile path := by
  have hsome : (Assoc.get? r.byFile path).isSome = (Assoc.get? r'.byFile path).isSome := by
    rw [Bool.eq_iff_iff, Assoc.get?_isSome_iff, Assoc.get?_isSome_iff, h.keys, h'.keys, ha]
  cases e : Assoc.get? r.byFile path with
  | none =>
    rw [e] at hsome
    exact (Option.isSome_eq_false_iff.1 hsome.symm |> Option.isNone_iff_eq_none.1).symm
  | some f =>
    rw [e] at hsome
    obtain ⟨f', e'⟩ := Option.isSome_iff_exists.1 hsome.symm
    rw [e']
    refine congrArg some (Findings.ext_ofSeverity fun v => ?_)
    have hleft := h.files _ (Assoc.mem_of_get?_eq_some e) v
    have hright := h'.files _ (Assoc.mem_of_get?_eq_some e') v
    exact hleft.trans ((hf v).trans hright.symm)

/-! ## Whole runs -/

/-- The runs agree but for what the call for the batch at `k` gave, if there is one. -/
structure Run.Agree (batches : List Batch) (k : Nat) (p p' : Progress σ) (r r' : Result) :
    Prop where
  requests : p.adapter.requests = p'.adapter.requests
  waits : p.waits = p'.waits
  analyzed : r.analyzed = r'.analyzed
  skipped : r.skipped = r'.skipped
  batchCount : r.batchCount = r'.batchCount
  target : r.target = r'.target
  byFile : ∀ path ∉ batches[k]?.toList.flatMap (·.paths),
    Assoc.get? r.byFile path = Assoc.get? r'.byFile path
  findings : ∀ v,
    (r.findings.ofSeverity v).filter (·.file ∉ batches[k]?.toList.flatMap (·.paths)) =
      (r'.findings.ofSeverity v).filter (·.file ∉ batches[k]?.toList.flatMap (·.paths))
  failed : ∃ before labels labels' after,
    r.failed = before ++ labels ++ after ∧ r'.failed = before ++ labels' ++ after ∧
      labels.Sublist (batches[k]?.toList.map (·.label (k + 1))) ∧
      labels'.Sublist (batches[k]?.toList.map (·.label (k + 1)))

/-- Two runs over a tidy folder with models that differ in one outcome agree on the rest. -/
theorem Run.analyze_agree (s : Setup Nat) (clock : Clock) (site : Site) (target : String)
    (includes ignores : List String) (adapter : Adapter Nat) (token : Token)
    (script script' : Nat → Request → Ending) (k : Nat) {r r' : Result}
    (hsite : site.disk.top.Tidy)
    (hscript : ∀ n req, n ≠ adapter.state + k → script n req = script' n req)
    (h : (Run.analyze { s with oracle := .ofScript script } clock site target includes ignores
      adapter token).outcome = .ok r)
    (h' : (Run.analyze { s with oracle := .ofScript script' } clock site target includes ignores
      adapter token).outcome = .ok r')
    (hc : r.cancelled = false) (hc' : r'.cancelled = false) :
    ∃ scan plan,
      Scan.run site target ⟨includes, ignores, s.limits.bounds.maxFileSize⟩ = .ok scan ∧
      Plan.make? s.limits.bounds (prioritize scan.files) = some plan ∧
      Run.Agree plan.batches k
        (Run.analyze { s with oracle := .ofScript script } clock site target includes ignores
          adapter token)
        (Run.analyze { s with oracle := .ofScript script' } clock site target includes ignores
          adapter token) r r' := by
  obtain ⟨scan, hscan, hwhole⟩ := Run.exists_whole hsite h hc
  obtain ⟨scan', hscan', hwhole'⟩ := Run.exists_whole hsite h' hc'
  -- the scan does not depend on the model
  cases Except.ok.inj (hscan.symm.trans hscan')
  obtain ⟨before, mid, mid', after, hcut, hcut'⟩ :=
    Oracle.exists_cut s.audit 1 (Run.plan s scan).batches hscript
  have hfindings : ∀ v, ∀ keep : Issue → Bool, (∀ i, keep i = true →
      i.file ∉ (Run.plan s scan).batches[k]?.toList.flatMap (·.paths)) →
      (r.findings.ofSeverity v).filter keep = (r'.findings.ofSeverity v).filter keep := by
    intro v keep hkeep
    rw [hwhole.account.findings v, hwhole'.account.findings v]
    exact (hcut.issues scan.root v hkeep).trans (hcut'.issues scan.root v hkeep).symm
  have hanalyzed : r.analyzed = r'.analyzed := hwhole.analyzed.trans hwhole'.analyzed.symm
  refine ⟨scan, Run.plan s scan, hscan, Run.make?_eq_plan s scan, ?_⟩
  constructor
  case requests => exact hwhole.requests.trans hwhole'.requests.symm
  case waits => exact hwhole.waits.trans hwhole'.waits.symm
  case analyzed => exact hanalyzed
  case skipped => exact hwhole.skipped.trans hwhole'.skipped.symm
  case batchCount => exact hwhole.batchCount.trans hwhole'.batchCount.symm
  case target => exact hwhole.target.trans hwhole'.target.symm
  case byFile =>
    intro path hpath
    refine hwhole.mirrored.get?_byFile_eq hwhole'.mirrored hanalyzed fun v => ?_
    refine hfindings v _ fun i hi => ?_
    rw [of_decide_eq_true hi]
    exact hpath
  case findings => exact fun v => hfindings v _ fun i hi => of_decide_eq_true hi
  case failed =>
    obtain ⟨labels, hlabels, hsub⟩ := hcut.failures
    obtain ⟨labels', hlabels', hsub'⟩ := hcut'.failures
    rw [Nat.add_comm 1 k] at hsub hsub'
    exact ⟨_, labels, labels', _, hwhole.account.failed.trans hlabels,
      hwhole'.account.failed.trans hlabels', hsub, hsub'⟩

/-- The review of the small folder with a model that gives one ending first and no text later. -/
def Sample.runFirst (first : Ending) : Progress Nat :=
  Run.analyze
    { Sample.setup [] with oracle := .ofScript fun n _ => if n = 0 then first else .noText }
    Sample.clock Sample.site "/p" ["*.js"] [] { state := 0 } {}

theorem Run.analyze_agree_sample : Sample.site.disk.top.Tidy ∧
    ∃ r r', (Sample.runFirst (.text Response.twoRecords)).outcome = .ok r ∧
      (Sample.runFirst (.refused "busy")).outcome = .ok r' ∧
      r.cancelled = false ∧ r'.cancelled = false ∧ r.findings ≠ r'.findings ∧
      ∃ scan plan, Scan.run Sample.site "/p" ⟨["*.js"], [], 102400⟩ = .ok scan ∧
        Plan.make? ⟨200, 20, 102400, 102400⟩ (prioritize scan.files) = some plan ∧
        Run.Agree plan.batches 0 (Sample.runFirst (.text Response.twoRecords))
          (Sample.runFirst (.refused "busy")) r r' := by
  have hrun : (Sample.runFirst (.text Response.twoRecords)).outcome.toOption.map
      (fun r => (r.cancelled, r.total)) = some (false, 1) := by
    decide +kernel
  have hrun' : (Sample.runFirst (.refused "busy")).outcome.toOption.map
      (fun r => (r.cancelled, r.total)) = some (false, 0) := by
    decide +kernel
  obtain ⟨r, hr, e⟩ := exists_of_map_eq_some hrun
  obtain ⟨r', hr', e'⟩ := exists_of_map_eq_some hrun'
  obtain ⟨hc, ht⟩ := Prod.mk.inj e
  obtain ⟨hc', ht'⟩ := Prod.mk.inj e'
  have hne : r.findings ≠ r'.findings := by
    intro h
    rw [Result.total, h] at ht
    exact absurd (ht.symm.trans ht') (by decide)
  refine ⟨Sample.site_tidy, r, r', hr, hr', hc, hc', hne, ?_⟩
  refine Run.analyze_agree (Sample.setup []) Sample.clock Sample.site "/p" ["*.js"] []
    { state := 0 } {} _ _ 0 Sample.site_tidy (fun n _ hn => ?_) hr hr' hc hc'
  rw [if_neg hn, if_neg hn]

end PerfReview
