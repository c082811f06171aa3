import PerfReview.Proofs.Run.Mirror

/-!
# Runs that go through their plan

A run that was not cancelled has sent every batch of its plan and waited between the batches of each
group; its result accounts for all calls.
-/

namespace PerfReview

variable {σ : Type}

/-! ## Waits -/

/-- The waits between batches that follow one another in a group. -/
def Setup.waitsFor (s : Setup σ) (bs : List Batch) : List Amount :=
  List.replicate (bs.length - 1) s.limits.batchDelay

namespace Progress

variable {s : Setup σ} {root : String} {b : Batch} {p : Progress σ} {bs : List Batch}

@[simp] theorem settle_waits (reply : Reply) : (p.settle root b reply).waits = p.waits := by
  obtain ⟨status, r, es, e⟩ := settle_eq root b reply p
  rw [e]

@[simp] theorem runBatch_waits : (p.runBatch s root b).waits = p.waits := by
  rw [runBatch, settle_waits]
  rfl

@[simp] theorem finish_waits {start : Amount} : (p.finish start).waits = p.waits := by
  obtain ⟨r, clock, es, e⟩ := finish_eq start p
  rw [e]

theorem waitsFor_nil (s : Setup σ) : s.waitsFor [] = [] := rfl

theorem waitsFor_singleton (s : Setup σ) (b : Batch) : s.waitsFor [b] = [] := rfl

theorem waitsFor_cons_cons (b b' : Batch) (bs : List Batch) :
    s.waitsFor (b :: b' :: bs) = s.limits.batchDelay :: s.waitsFor (b' :: bs) := rfl

theorem pause_waits (s : Setup σ) (p : Progress σ) :
    (p.pause s).waits = p.waits ++ [s.limits.batchDelay] := by
  obtain ⟨ws, rfl, ⟨e, -⟩ | ⟨t, es, e, -⟩ | ⟨f, e, -⟩⟩ := p.pause_cases s <;> rw [e]

/-- The waits of a run that goes on after the batches of a group. -/
theorem runBatches_waits (h : (p.runBatches s root bs).status = .going) :
    (p.runBatches s root bs).waits = p.waits ++ s.waitsFor bs := by
  induction bs generalizing p with
  | nil => rw [runBatches, waitsFor_nil, List.append_nil]
  | cons b bs ih =>
    rw [runBatches] at h ⊢
    split at h
    · cases h
    · rename_i ht
      rw [if_neg ht]
      dsimp only at h ⊢
      split at h
      · rename_i hend
        -- the run goes on, so the batch was the last one
        have hnil : bs = [] := by simpa [h] using hend
        subst hnil
        rw [if_pos hend, runBatch_waits, waitsFor_singleton, List.append_nil]
      · rename_i hgo
        rw [if_neg hgo]
        simp only [Bool.or_eq_true, not_or, List.isEmpty_iff] at hgo
        obtain ⟨b', bs, rfl⟩ := List.exists_cons_of_ne_nil hgo.2
        split at h
        · rename_i hp
          exact absurd h hp
        · rename_i hp
          rw [if_neg hp, ih h, pause_waits, runBatch_waits, List.append_assoc,
            List.singleton_append, ← waitsFor_cons_cons]

theorem runGroups_waits {gs : List (Group × List Batch)}
    (h : (p.runGroups s root gs).status = .going) :
    (p.runGroups s root gs).waits = p.waits ++ gs.flatMap fun g => s.waitsFor g.2 := by
  induction gs generalizing p with
  | nil => rw [runGroups, List.flatMap_nil, List.append_nil]
  | cons g gs ih =>
    obtain ⟨g, bs⟩ := g
    rw [runGroups] at h ⊢
    split at h
    · rename_i hstop
      exact absurd h hstop
    · rename_i hgo
      have hgroup : ((p.tell [groupLog g bs]).runBatches s root bs).waits =
          p.waits ++ s.waitsFor bs :=
        runBatches_waits (Decidable.not_not.1 hgo)
      rw [if_neg hgo, ih h, hgroup, List.append_assoc, List.flatMap_cons]

end Progress

/-! ## Whole runs -/

/-- The run `p` with the result `r` has gone through the plan for a scanned folder. -/
structure Run.Whole (s : Setup σ) (adapter : Adapter σ) (scan : Scan) (p : Progress σ)
    (r : Result) : Prop where
  requests : p.adapter.requests =
    adapter.requests ++ (Run.plan s scan).batches.map (Request.ofBatch · s.audit)
  waits : p.waits = (Run.plan s scan).groups.flatMap fun g => s.waitsFor g.2
  account : Account scan.root
    (s.oracle.calls s.audit adapter.state 1 (Run.plan s scan).batches) r
  skipped : r.skipped = scan.skipped ++ (Run.plan s scan).skipped.map (·.relative) ++
    (Run.plan s scan).dropped.map (·.relative)
  batchCount : r.batchCount = (Run.plan s scan).batches.length
  target : r.target = scan.root
  mirrored : r.Mirrored

theorem Run.Whole.analyzed {s : Setup σ} {adapter : Adapter σ} {scan : Scan} {p : Progress σ}
    {r : Result} (h : Run.Whole s adapter scan p r) :
    r.analyzed = (Run.plan s scan).files.map (·.relative) := by
  rw [h.account.analyzed, Oracle.flatMap_paths_calls, Plan.files, List.map_flatMap]
  rfl

/-- A run over a tidy folder that gives a result and was not cancelled is whole. -/
theorem Run.exists_whole {s : Setup σ} {clock : Clock} {site : Site} {target : String}
    {includes ignores : List String} {adapter : Adapter σ} {token : Token} {r : Result}
    (hsite : site.disk.top.Tidy)
    (h : (Run.analyze s clock site target includes ignores adapter token).outcome = .ok r)
    (hc : r.cancelled = false) :
    ∃ scan, Scan.run site target ⟨includes, ignores, s.limits.bounds.maxFileSize⟩ = .ok scan ∧
      Run.Whole s adapter scan
        (Run.analyze s clock site target includes ignores adapter token) r := by
  obtain ⟨scan, hscan⟩ := Run.exists_scan_of_outcome h
  obtain ⟨p, e, hp, hcourse⟩ := Run.analyze_course clock adapter token hscan
  rw [e] at h ⊢
  obtain ⟨hg, d, rfl⟩ := hcourse.going_of_outcome h hc
  have hacc := (hcourse.of_going hg).1
  obtain ⟨hskipped, hcount, htarget⟩ := hacc.frame
  refine ⟨scan, hscan, ?_⟩
  constructor
  case requests => exact Progress.finish_adapter (p := p) ▸ hacc.requests
  case waits =>
    rw [Progress.finish_waits]
    rw [hp] at hg ⊢
    exact Progress.runGroups_waits hg
  case account => exact (hacc.account (Run.opened_account ..)).finish _ _
  case skipped => exact hskipped
  case batchCount => exact hcount
  case target => exact htarget
  case mirrored => exact (hacc.mirrored hsite hscan List.prefix_rfl).congr rfl rfl rfl

end PerfReview
