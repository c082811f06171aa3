import PerfReview.Proofs.Plan.Bounds
import PerfReview.Proofs.Plan.Ranking
import PerfReview.Proofs.Run.Whole
import PerfReview.Proofs.Scan.Listing

/-!
# Where the files of a folder go

A run that was not cancelled names each file that it found once, as analysed or as skipped, except
the files without a group that are among the best.
-/

namespace PerfReview

variable {σ : Type}

namespace Run

variable {s : Setup σ} {scan : Scan}

/-- The paths that a run names when it has gone through its plan. -/
def placed (s : Setup σ) (scan : Scan) : List String :=
  (plan s scan).files.map (·.relative) ++
    (scan.skipped ++ (plan s scan).skipped.map (·.relative) ++
      (plan s scan).dropped.map (·.relative))

theorem placed_perm (s : Setup σ) (scan : Scan) : (placed s scan).Perm
    (((plan s scan).files ++ (plan s scan).skipped ++ (plan s scan).dropped).map (·.relative) ++
      scan.skipped) := by
  simp only [placed, List.map_append, List.append_assoc]
  refine List.Perm.append_left _ ?_
  rw [← List.append_assoc (List.map _ (plan s scan).skipped)]
  exact List.perm_append_comm

variable (hnodup : (scan.files.map (·.relative) ++ scan.skipped).Nodup)
include hnodup

theorem files_nodup_of_paths : (prioritize scan.files).Nodup := by
  rw [(prioritize_perm scan.files).nodup_iff]
  exact (List.nodup_append.1 hnodup).1.of_map

theorem placed_nodup (s : Setup σ) : (placed s scan).Nodup := by
  rw [(placed_perm s scan).nodup_iff]
  have hfiles : ((plan s scan).files ++ (plan s scan).skipped ++ (plan s scan).dropped).Nodup :=
    Plan.placed_nodup _ (files_nodup_of_paths hnodup)
  have hsub : ∀ f ∈ (plan s scan).files ++ (plan s scan).skipped ++ (plan s scan).dropped,
      f ∈ scan.files := by
    intro f hf
    rw [← (prioritize_perm scan.files).mem_iff]
    exact ((Plan.mem_placed_iff _ (files_nodup_of_paths hnodup)).1 hf).1
  obtain ⟨hpaths, hskipped, hdisjoint⟩ := List.nodup_append.1 hnodup
  refine List.nodup_append.2 ⟨?_, hskipped, fun path hpath => ?_⟩
  · refine hfiles.map_on fun f hf g hg e => ?_
    exact List.inj_on_of_nodup_map hpaths (hsub f hf) (hsub g hg) e
  · obtain ⟨f, hf, rfl⟩ := List.mem_map.1 hpath
    exact hdisjoint f.relative (List.mem_map_of_mem (hsub f hf))

/-- A run names the files found, except those without a group that are among the best. -/
theorem mem_placed_iff (s : Setup σ) (hindex : scan.files.Pairwise fun f g => f.index < g.index)
    {path : String} : path ∈ placed s scan ↔
      path ∈ scan.files.map (·.relative) ++ scan.skipped ∧
        ¬ ∃ f ∈ scan.files, f.relative = path ∧ f.group = none ∧
          rank scan.files f < s.limits.bounds.maxFiles := by
  have hmax : ∀ f, f ∈ (prioritize scan.files).take s.limits.bounds.maxFiles.toNat ↔
      f ∈ scan.files ∧ rank scan.files f < s.limits.bounds.maxFiles := by
    intro f
    obtain ⟨hpos, -⟩ := s.limits.bounds_usable
    rw [mem_take_prioritize_iff hindex]
    refine and_congr_right fun _ => ?_
    omega
  have hplaced : ∀ f, f ∈ (plan s scan).files ++ (plan s scan).skipped ++ (plan s scan).dropped ↔
      f ∈ scan.files ∧ ¬ (f.group = none ∧ rank scan.files f < s.limits.bounds.maxFiles) := by
    intro f
    rw [plan, Plan.mem_placed_iff _ (files_nodup_of_paths hnodup), hmax,
      (prioritize_perm scan.files).mem_iff]
    refine and_congr_right fun hf => not_congr ?_
    rw [and_iff_right hf, and_comm]
  obtain ⟨hpaths, -, hdisjoint⟩ := List.nodup_append.1 hnodup
  rw [(placed_perm s scan).mem_iff, List.mem_append, List.mem_append]
  constructor
  · rintro (hpath | hpath)
    · obtain ⟨f, hf, rfl⟩ := List.mem_map.1 hpath
      obtain ⟨hf, hnot⟩ := (hplaced f).1 hf
      refine ⟨.inl (List.mem_map_of_mem hf), ?_⟩
      rintro ⟨g, hg, e, hexempt⟩
      cases List.inj_on_of_nodup_map hpaths hg hf e
      exact hnot hexempt
    · refine ⟨.inr hpath, ?_⟩
      rintro ⟨g, hg, e, -⟩
      exact hdisjoint g.relative (List.mem_map_of_mem hg) path hpath e
  · rintro ⟨hpath | hpath, hnot⟩
    · obtain ⟨f, hf, rfl⟩ := List.mem_map.1 hpath
      have hkept := (hplaced f).2 ⟨hf, fun hexempt => hnot ⟨f, hf, rfl, hexempt⟩⟩
      exact .inl (List.mem_map_of_mem hkept)
    · exact .inr hpath

end Run

theorem Scan.Lists.index_pairwise {d : Disk} {sel : Selection} {root : String}
    {entries : List (String × Node)} {files : List Source}
    (h : Scan.Lists d sel root entries files) : files.Pairwise fun f g => f.index < g.index := by
  have hsorted : (files.map (·.index)).Pairwise (· < ·) := by
    rw [h.indexed]
    exact List.pairwise_lt_range
  exact List.pairwise_map.1 hsorted

/-- What a whole run names. -/
theorem Run.Whole.placed {s : Setup σ} {adapter : Adapter σ} {scan : Scan} {p : Progress σ}
    {r : Result} (h : Run.Whole s adapter scan p r) :
    r.analyzed ++ r.skipped = Run.placed s scan := by
  rw [h.analyzed, h.skipped]
  rfl

/-- A run over a tidy folder that was not cancelled names once each file that is not ignored,
matches an include pattern and can be read, except the files without a group among the best; it
analyses no more files than it may. -/
theorem Run.analyze_partition (s : Setup σ) (clock : Clock) (site : Site) (target : String)
    (includes ignores : List String) (adapter : Adapter σ) (token : Token) {r : Result}
    (hsite : site.disk.top.Tidy)
    (h : (Run.analyze s clock site target includes ignores adapter token).outcome = .ok r)
    (hc : r.cancelled = false) :
    ∃ root entries files, (site.expand target >>= site.resolve) = .ok root ∧
      site.find? root = .ok (some (.folder entries)) ∧
      Scan.Lists site.disk ⟨includes, ignores, s.limits.bounds.maxFileSize⟩ root entries files ∧
      (r.analyzed ++ r.skipped).Nodup ∧
      (∀ path, path ∈ r.analyzed ++ r.skipped ↔
        (∃ c bytes, Scan.Eligible site.disk ⟨includes, ignores, s.limits.bounds.maxFileSize⟩ root
          entries c bytes ∧ c.relative = path) ∧
        ¬ ∃ f ∈ files, f.relative = path ∧ f.group = none ∧
          rank files f < s.limits.bounds.maxFiles) ∧
      r.analyzed.length ≤ s.limits.bounds.maxFiles := by
  obtain ⟨scan, hscan, hwhole⟩ := Run.exists_whole hsite h hc
  obtain ⟨entries, hroot, hfind, hlists, hnodup, hmem⟩ := Scan.run_lists hsite hscan
  refine ⟨scan.root, entries, scan.files, hroot, hfind, hlists, ?_, fun path => ?_, ?_⟩
  · rw [hwhole.placed]
    exact Run.placed_nodup hnodup s
  · rw [hwhole.placed, Run.mem_placed_iff hnodup s hlists.index_pairwise, hmem]
  · rw [hwhole.analyzed, List.length_map]
    exact Plan.length_files_le s.limits.bounds_usable _

theorem Run.analyze_partition_sample : Sample.site.disk.top.Tidy ∧
    ∃ r, (Sample.run [.text Response.twoRecords]).outcome = .ok r ∧ r.cancelled = false ∧
      ∃ root entries files, (Sample.site.expand "/p" >>= Sample.site.resolve) = .ok root ∧
        Sample.site.find? root = .ok (some (.folder entries)) ∧
        Scan.Lists Sample.site.disk ⟨["*.js"], [], 102400⟩ root entries files ∧
        (r.analyzed ++ r.skipped).Nodup ∧
        (∀ path, path ∈ r.analyzed ++ r.skipped ↔
          (∃ c bytes, Scan.Eligible Sample.site.disk ⟨["*.js"], [], 102400⟩ root entries c bytes ∧
            c.relative = path) ∧
          ¬ ∃ f ∈ files, f.relative = path ∧ f.group = none ∧ rank files f < (200 : Int)) ∧
        r.analyzed.length ≤ (200 : Int) := by
  have hrun : (Sample.run [.text Response.twoRecords]).outcome.toOption.map (·.cancelled) =
      some false := by
    decide +kernel
  obtain ⟨r, hr, hc⟩ := exists_of_map_eq_some hrun
  exact ⟨Sample.site_tidy, r, hr, hc,
    Run.analyze_partition _ _ _ _ _ _ _ _ Sample.site_tidy hr hc⟩

end PerfReview
