import Mathlib.Algebra.BigOperators.Group.List.Basic
import PerfReview.Proofs.Plan.Files
import PerfReview.Proofs.Response.Files
import PerfReview.Proofs.Run.Trace
import PerfReview.Proofs.Scan.Paths

/-!
# The findings by file

A result is mirrored if its findings by file are those of the run, file by file in the order in
which the files were taken up. Entering a call keeps this as long as no file comes twice, which
holds for the plan of a tidy folder.
-/

namespace PerfReview

variable {σ : Type}

/-- The findings by file are the findings of the run, sorted by file. -/
structure Result.Mirrored (r : Result) : Prop where
  keys : r.byFile.map (·.1) = r.analyzed
  nodup : r.analyzed.Nodup
  files : ∀ e ∈ r.byFile, ∀ v,
    e.2.ofSeverity v = (r.findings.ofSeverity v).filter (·.file = e.1)
  listed : ∀ v, ∀ i ∈ r.findings.ofSeverity v, i.severity = v ∧ i.file ∈ r.analyzed

/-! ## Steps -/

namespace Result

variable {r : Result}

theorem takeUps_byFile {paths : List String} (hn : (r.byFile.map (·.1) ++ paths).Nodup) :
    (paths.foldl (fun r path => r.takeUp path) r).byFile =
      r.byFile ++ paths.map fun path => (path, ({} : Findings)) := by
  induction paths generalizing r with
  | nil => simp
  | cons path paths ih =>
    have hpath : path ∉ r.byFile.map (·.1) := fun h =>
      (List.nodup_append.1 hn).2.2 path h path List.mem_cons_self rfl
    have htake : r.takeUp path = { r with byFile := r.byFile ++ [(path, {})] } := by
      rw [takeUp, if_neg (mt Assoc.get?_isSome_iff.1 hpath)]
    rw [List.foldl_cons, htake, ih (by simpa using hn)]
    simp

theorem Mirrored.begin (h : r.Mirrored) {b : Batch} (hn : (r.analyzed ++ b.paths).Nodup) :
    (r.begin b).Mirrored := by
  have hbyFile : (r.begin b).byFile = r.byFile ++ b.paths.map fun path => (path, ({} : Findings)) :=
    takeUps_byFile (r := { r with analyzed := r.analyzed ++ b.paths }) (by rwa [h.keys])
  obtain ⟨m, e⟩ := r.begin_eq b
  rw [e] at hbyFile ⊢
  cases hbyFile
  refine ⟨by simp [h.keys, Function.comp_def], hn, ?_, ?_⟩
  · intro e he v
    rcases List.mem_append.1 he with he | he
    · exact h.files e he v
    · -- a file that is taken up has no issues yet
      obtain ⟨path, hpath, rfl⟩ := List.mem_map.1 he
      have hempty : (r.findings.ofSeverity v).filter (·.file = path) = [] := by
        refine List.filter_eq_nil_iff.2 fun i hi hfile => ?_
        have hlisted := (h.listed v i hi).2
        rw [of_decide_eq_true hfile] at hlisted
        exact (List.nodup_append.1 hn).2.2 path hlisted path hpath rfl
      rw [hempty]
      cases v <;> rfl
  · intro v i hi
    obtain ⟨hs, hf⟩ := h.listed v i hi
    exact ⟨hs, List.mem_append_left _ hf⟩

theorem Mirrored.add (h : r.Mirrored) {i : Issue} (hi : i.file ∈ r.analyzed) :
    (r.add i).Mirrored := by
  have hkey : i.file ∈ r.byFile.map (·.1) := by rwa [h.keys]
  have hnodup : (r.byFile.map (·.1)).Nodup := by
    rw [h.keys]
    exact h.nodup
  refine ⟨(Assoc.keys_put hkey).trans h.keys, h.nodup, ?_, ?_⟩
  · intro e he v
    change e.2.ofSeverity v = ((r.findings.add i).ofSeverity v).filter (·.file = e.1)
    rw [Findings.ofSeverity_add, List.filter_append]
    rcases Assoc.mem_put_of_nodup hnodup he with rfl | ⟨he, hne⟩
    · obtain ⟨f, hf⟩ := Option.isSome_iff_exists.1 (Assoc.get?_isSome_iff.2 hkey)
      have hold := h.files _ (Assoc.mem_of_get?_eq_some hf) v
      rw [ofFile, hf, Option.getD_some, Findings.ofSeverity_add, hold]
      split <;> simp
    · rw [h.files e he v]
      split <;> simp [Ne.symm hne]
  · intro v j hj
    change j ∈ (r.findings.add i).ofSeverity v at hj
    rw [Findings.ofSeverity_add] at hj
    rcases List.mem_append.1 hj with hj | hj
    · exact h.listed v j hj
    · split at hj
      · rename_i hv
        cases List.mem_singleton.1 hj
        exact ⟨hv, hi⟩
      · cases hj

theorem Mirrored.addAll (h : r.Mirrored) {is : List Issue}
    (hi : ∀ i ∈ is, i.file ∈ r.analyzed) : (r.addAll is).Mirrored := by
  induction is generalizing r with
  | nil => exact h
  | cons i is ih =>
    obtain ⟨hi, his⟩ := List.forall_mem_cons.1 hi
    exact ih (h.add hi) his

theorem Mirrored.congr (h : r.Mirrored) {r' : Result} (hb : r'.byFile = r.byFile)
    (ha : r'.analyzed = r.analyzed) (hf : r'.findings = r.findings) : r'.Mirrored := by
  refine ⟨?_, ?_, ?_, ?_⟩
  · rw [hb, ha, h.keys]
  · rw [ha]
    exact h.nodup
  · rw [hb, hf]
    exact h.files
  · rw [hf, ha]
    exact h.listed

theorem Mirrored.take (h : r.Mirrored) {root : String} {c : Exchange}
    (hn : (r.analyzed ++ c.batch.paths).Nodup) : (r.take root c).Mirrored := by
  have hbegin := h.begin hn
  obtain ⟨m, hm⟩ := r.begin_eq c.batch
  have hanalyzed : (r.begin c.batch).analyzed = r.analyzed ++ c.batch.paths := by rw [hm]
  unfold Result.take
  cases hc : c.response? root with
  | none => exact hbegin.congr rfl rfl rfl
  | some a =>
    refine (hbegin.addAll fun i hi => ?_).congr rfl rfl rfl
    obtain ⟨text, -, rfl⟩ := Option.map_eq_some_iff.1 hc
    rw [hanalyzed]
    exact List.mem_append_right _ (Response.file_mem_of_issue hi)

theorem take_analyzed (root : String) (c : Exchange) (r : Result) :
    (r.take root c).analyzed = r.analyzed ++ c.batch.paths := by
  obtain ⟨m, hm⟩ := r.begin_eq c.batch
  unfold Result.take
  cases c.response? root with
  | none => rw [hm]
  | some a =>
    obtain ⟨m', hm'⟩ := addAll_eq a.issues (r.begin c.batch)
    simp only [hm']
    rw [hm]

theorem Mirrored.foldl (h : r.Mirrored) {root : String} {cs : List Exchange}
    (hn : (r.analyzed ++ cs.flatMap (·.batch.paths)).Nodup) :
    (cs.foldl (fun r c => r.take root c) r).Mirrored := by
  induction cs generalizing r with
  | nil => exact h
  | cons c cs ih =>
    rw [List.flatMap_cons, ← List.append_assoc] at hn
    refine ih (h.take (List.nodup_append.1 hn).1) ?_
    rwa [take_analyzed]

/-! ## What mirroring gives -/

/-- Every issue of the run lies in one list of the findings by file, that of its severity. -/
theorem Mirrored.exists_only (h : r.Mirrored) {v : Severity} {i : Issue}
    (hi : i ∈ r.findings.ofSeverity v) : i.severity = v ∧
      ∃ e ∈ r.byFile, ∀ e' ∈ r.byFile, ∀ v', i ∈ e'.2.ofSeverity v' ↔ e' = e ∧ v' = v := by
  obtain ⟨hv, hfile⟩ := h.listed v i hi
  rw [← h.keys] at hfile
  obtain ⟨e, he, hkey⟩ := List.mem_map.1 hfile
  refine ⟨hv, e, he, fun e' he' v' => ?_⟩
  rw [h.files e' he' v', List.mem_filter, decide_eq_true_eq]
  constructor
  · rintro ⟨hi', hkey'⟩
    have hnodup : (r.byFile.map (·.1)).Nodup := by
      rw [h.keys]
      exact h.nodup
    exact ⟨List.inj_on_of_nodup_map hnodup he' he (hkey'.symm.trans hkey.symm),
      (h.listed v' i hi').1.symm.trans hv⟩
  · rintro ⟨rfl, rfl⟩
    exact ⟨hi, hkey.symm⟩

theorem sum_map_ite (keys : List String) (key : String) :
    (keys.map fun k => if k = key then 1 else 0).sum = keys.count key := by
  induction keys with
  | nil => rfl
  | cons k keys ih =>
    rw [List.map_cons, List.sum_cons, ih, List.count_cons, Nat.add_comm]
    simp only [beq_iff_eq]

theorem sum_length_filter {keys : List String} (hn : keys.Nodup) {is : List Issue}
    (h : ∀ i ∈ is, i.file ∈ keys) :
    (keys.map fun k => (is.filter (·.file = k)).length).sum = is.length := by
  induction is with
  | nil => simp
  | cons i is ih =>
    obtain ⟨hi, his⟩ := List.forall_mem_cons.1 h
    have hone : ∀ k, ((i :: is).filter (·.file = k)).length =
        (if k = i.file then 1 else 0) + (is.filter (·.file = k)).length := by
      intro k
      by_cases hk : i.file = k
      · simp [hk, Nat.add_comm]
      · simp [hk, Ne.symm hk]
    simp only [hone]
    rw [List.sum_map_add, sum_map_ite, List.count_eq_one_of_mem hn hi, ih his, List.length_cons,
      Nat.add_comm]

/-- The findings of the files add up to those of the run. -/
theorem Mirrored.sum_total (h : r.Mirrored) : (r.byFile.map (·.2.total)).sum = r.total := by
  have hlen : ∀ v, (r.byFile.map fun e => (e.2.ofSeverity v).length).sum =
      (r.findings.ofSeverity v).length := by
    intro v
    rw [← sum_length_filter h.nodup fun i hi => (h.listed v i hi).2, ← h.keys, List.map_map]
    congr 1
    exact List.map_congr_left fun e he => by rw [h.files e he v]; rfl
  have htotal : ∀ f : Findings, f.total = (f.ofSeverity .critical).length +
      ((f.ofSeverity .warning).length + (f.ofSeverity .suggestion).length) := by
    intro f
    rw [← Nat.add_assoc]
    rfl
  simp only [htotal, List.sum_map_add, hlen]
  rw [total, htotal]

end Result

/-! ## Whole runs -/

theorem Setup.paths_calls_nodup {s : Setup σ} (start : Progress σ) {site : Site}
    (h : site.disk.top.Tidy) {target : String} {sel : Selection} {scan : Scan}
    (e : Scan.run site target sel = .ok scan) {ts : List Batch}
    (hts : ts <+: (Run.plan s scan).batches) :
    ((s.calls start ts).flatMap (·.batch.paths)).Nodup := by
  have hfiles : ((Run.plan s scan).files.map (·.relative)).Nodup := by
    refine Plan.files_nodup _ ?_
    exact ((prioritize_perm scan.files).map _).nodup_iff.2 (Scan.files_nodup h e)
  obtain ⟨more, hmore⟩ := hts
  rw [Plan.files, ← hmore, List.flatMap_append, List.map_append, List.map_flatMap] at hfiles
  rw [Setup.calls, Oracle.flatMap_paths_calls]
  exact (List.nodup_append.1 hfiles).1

/-- The result of a run over a tidy folder is mirrored with any of its batches behind it. -/
theorem Accounted.mirrored {s : Setup σ} {clock : Clock} {adapter : Adapter σ} {token : Token}
    {site : Site} {target : String} {sel : Selection} {scan : Scan} {ts : List Batch}
    {p : Progress σ} (h : Accounted s scan.root (Run.opened s clock adapter token scan) ts p)
    (hsite : site.disk.top.Tidy) (hscan : Scan.run site target sel = .ok scan)
    (hts : ts <+: (Run.plan s scan).batches) : p.result.Mirrored := by
  have hopen : (Run.opened s clock adapter token scan).result.Mirrored :=
    ⟨rfl, List.nodup_nil, fun _ he => (by cases he), fun v _ hi => (by cases v <;> cases hi)⟩
  have hnodup := Setup.paths_calls_nodup (Run.opened s clock adapter token scan) hsite hscan hts
  rw [h.result]
  exact hopen.foldl hnodup

/-- The result of a run over a tidy folder is mirrored. -/
theorem Run.mirrored_of_outcome {s : Setup σ} {clock : Clock} {site : Site} {target : String}
    {includes ignores : List String} {adapter : Adapter σ} {token : Token} {r : Result}
    (hsite : site.disk.top.Tidy)
    (h : (Run.analyze s clock site target includes ignores adapter token).outcome = .ok r) :
    r.Mirrored := by
  obtain ⟨scan, hscan⟩ := Run.exists_scan_of_outcome h
  obtain ⟨p, e, -, hcourse⟩ := Run.analyze_course clock adapter token hscan
  rw [e] at h
  obtain ⟨ts, hts, hacc, c, d, rfl⟩ := hcourse.accounted_of_outcome h
  exact (hacc.mirrored hsite hscan hts).congr rfl rfl rfl

/-- The findings by file of every run over a tidy folder mirror the findings of the run. -/
theorem Run.analyze_mirrored (s : Setup σ) (clock : Clock) (site : Site) (target : String)
    (includes ignores : List String) (adapter : Adapter σ) (token : Token) {r : Result}
    (hsite : site.disk.top.Tidy)
    (h : (Run.analyze s clock site target includes ignores adapter token).outcome = .ok r) :
    r.byFile.map (·.1) = r.analyzed ∧ r.analyzed.Nodup ∧
      (∀ e ∈ r.byFile, ∀ v, e.2.ofSeverity v = (r.findings.ofSeverity v).filter (·.file = e.1)) ∧
      (∀ v, ∀ i ∈ r.findings.ofSeverity v, i.severity = v ∧ ∃ e ∈ r.byFile, ∀ e' ∈ r.byFile, ∀ v',
        i ∈ e'.2.ofSeverity v' ↔ e' = e ∧ v' = v) ∧
      (r.byFile.map (·.2.total)).sum = r.total := by
  have hmirrored := Run.mirrored_of_outcome hsite h
  exact ⟨hmirrored.keys, hmirrored.nodup, hmirrored.files, fun v i hi => hmirrored.exists_only hi,
    hmirrored.sum_total⟩

theorem Sample.site_tidy : Sample.site.disk.top.Tidy :=
  Disk.place_tidy (d := .empty) Node.tidy_nil "/p/a.js" .file

theorem Run.analyze_mirrored_sample : Sample.site.disk.top.Tidy ∧
    ∃ r, (Sample.run [.text Response.twoRecords]).outcome = .ok r ∧
      r.byFile.map (·.1) = r.analyzed ∧ r.analyzed.Nodup ∧
      (∀ e ∈ r.byFile, ∀ v, e.2.ofSeverity v = (r.findings.ofSeverity v).filter (·.file = e.1)) ∧
      (∀ v, ∀ i ∈ r.findings.ofSeverity v, i.severity = v ∧ ∃ e ∈ r.byFile, ∀ e' ∈ r.byFile, ∀ v',
        i ∈ e'.2.ofSeverity v' ↔ e' = e ∧ v' = v) ∧
      (r.byFile.map (·.2.total)).sum = r.total := by
  have h : (Sample.run [.text Response.twoRecords]).outcome.toOption.isSome = true := by
    decide +kernel
  obtain ⟨r, hr⟩ := exists_of_isSome h
  exact ⟨Sample.site_tidy, r, hr,
    Run.analyze_mirrored _ _ _ _ _ _ _ _ Sample.site_tidy hr⟩

end PerfReview
