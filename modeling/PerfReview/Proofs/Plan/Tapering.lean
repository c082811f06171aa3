import PerfReview.Proofs.Plan.Divisions

/-!
# Batches taper off

A group is packed smallest files first, so no file of a run is smaller than a file of an earlier run.
A run that had as many files as the one before it and one more would hold at least as much as that
one with its next file, and there would have been room for that file. So the number of files does not
grow from one batch to the next, and behind a batch that the budget closed none is full.
-/

namespace PerfReview

theorem totalSize_le_of_forall {xs ys : List Source} (hlen : xs.length ≤ ys.length)
    (hle : ∀ f ∈ xs, ∀ g ∈ ys, f.size ≤ g.size) (hsize : ∀ g ∈ ys, 0 ≤ g.size) :
    totalSize xs ≤ totalSize ys := by
  induction xs generalizing ys with
  | nil => exact totalSize_nonneg hsize
  | cons f xs ih =>
    cases ys with
    | nil => cases hlen
    | cons g ys =>
      have hfg : f.size ≤ g.size := hle f List.mem_cons_self g List.mem_cons_self
      have hrest := ih (Nat.le_of_succ_le_succ hlen)
        (fun f' hf' g' hg' => hle f' (List.mem_cons_of_mem f hf') g' (List.mem_cons_of_mem g hg'))
        (List.forall_mem_cons.1 hsize).2
      show f.size + totalSize xs ≤ g.size + totalSize ys
      omega

namespace Plan

variable {b : Bounds} {g : Group} {f : Source} {files run next : List Source}

/-- A run has no more files than the one before it, if that had no room for the first of them. -/
theorem length_le_of_not_hold (hf : f ∈ next.head?) (hfull : ¬ b.Hold (run ++ [f]))
    (hnext : b.Hold next) (hle : ∀ k ∈ run, ∀ k' ∈ next, k.size ≤ k'.size)
    (hsize : ∀ k ∈ next, 0 ≤ k.size) : next.length ≤ run.length := by
  obtain ⟨more, rfl⟩ := List.head?_eq_some_iff.1 hf
  by_contra hlt
  obtain ⟨hcount, htotal⟩ := hnext
  have hmore : totalSize run ≤ totalSize more :=
    totalSize_le_of_forall (by simpa [Nat.lt_succ_iff] using hlt)
      (fun k hk k' hk' => hle k hk k' (List.mem_cons_of_mem f hk'))
      (List.forall_mem_cons.1 hsize).2
  refine hfull ⟨?_, ?_⟩
  · rw [List.length_append, List.length_singleton]
    omega
  · have hall : totalSize (f :: more) = f.size + totalSize more := rfl
    rw [totalSize_append, totalSize_singleton]
    omega

/-- Files in the order of their sizes are cut into runs that have no more files than those before
them. -/
theorem pairwise_length_runs (hb : b.Usable) (hfits : ∀ f ∈ files, fits b f = true)
    (hsize : ∀ f ∈ files, 0 ≤ f.size) (hsorted : files.Pairwise fun f k => f.size ≤ k.size) :
    (runs b [] files).Pairwise fun run later => later.length ≤ run.length := by
  have hflat : (runs b [] files).flatten = files := flatten_runs b [] files
  have hmem : ∀ run ∈ runs b [] files, ∀ f ∈ run, 0 ≤ f.size := fun run hrun f hf =>
    hsize f (hflat ▸ List.mem_flatten_of_mem hrun hf)
  have hordered : (runs b [] files).Pairwise fun run later =>
      ∀ k ∈ run, ∀ k' ∈ later, k.size ≤ k'.size := by
    rw [← hflat, List.pairwise_flatten] at hsorted
    exact hsorted.2
  have hchain : (runs b [] files).IsChain fun run next => next.length ≤ run.length := by
    rw [List.isChain_iff_forall_rel_of_append_cons_cons]
    intro run next before after e
    obtain ⟨f, hf, hfull⟩ :=
      List.isChain_iff_forall_rel_of_append_cons_cons.1 (isChain_runs b [] files) e
    have hnext : next ∈ runs b [] files := by simp [e]
    rw [e, List.pairwise_append, List.pairwise_cons] at hordered
    exact length_le_of_not_hold hf hfull (hold_of_mem_runs hb (hold_nil hb) hfits hnext).2
      (hordered.2.1.1 next List.mem_cons_self) (hmem next hnext)
  have : IsTrans (List Source) fun run next => next.length ≤ run.length :=
    ⟨fun _ _ _ h h' => h'.trans h⟩
  exact hchain.pairwise

/-- A batch has no more files than those before it. A batch with fewer files than it might have was
closed because the next file would have been too much for the budget, unless it is the last one, and
no batch behind it is full. -/
theorem pack_tapers (hb : b.Usable) (g : Group) (hsize : ∀ f ∈ files, 0 ≤ f.size) :
    (pack b g files).Pairwise (fun batch later => later.files.length ≤ batch.files.length) ∧
      ∀ before batch next after, pack b g files = before ++ batch :: next :: after →
        batch.files.length < b.batchSize →
          (∃ f ∈ next.files.head?, b.tokenBudget < batch.size + f.size) ∧
            ∀ later ∈ next :: after, later.files.length < b.batchSize := by
  have hperm := (ascending_bySize files).perm
  have hpairwise : (pack b g files).Pairwise
      fun batch later => later.files.length ≤ batch.files.length := by
    rw [pack, List.pairwise_map]
    refine pairwise_length_runs hb (fun f hf => (List.mem_filter.1 hf).2) (fun f hf => ?_) ?_
    · exact hsize f (hperm.mem_iff.1 (List.mem_of_mem_filter hf))
    · exact (ascending_bySize files).sizes.filter (fits b)
  refine ⟨hpairwise, fun before batch next after e hfew => ⟨?_, fun later hlater => ?_⟩⟩
  · have hchain : (pack b g files).IsChain fun batch next =>
        ∃ f ∈ next.files.head?, ¬ b.Hold (batch.files ++ [f]) := by
      rw [pack, List.isChain_map]
      exact isChain_runs b [] _
    obtain ⟨f, hf, hfull⟩ := List.isChain_iff_forall_rel_of_append_cons_cons.1 hchain e
    refine ⟨f, hf, ?_⟩
    by_contra hroom
    refine hfull ⟨?_, ?_⟩
    · rw [List.length_append, List.length_singleton]
      omega
    · rw [totalSize_append, totalSize_singleton]
      exact Int.not_lt.1 hroom
  · rw [e, List.pairwise_append, List.pairwise_cons] at hpairwise
    have hle := hpairwise.2.1.1 later hlater
    omega

theorem pack_tapers_sample : (⟨5, 3, 6, 5⟩ : Bounds).Usable ∧ (∀ f ∈ sampleFiles, 0 ≤ f.size) ∧
    (pack ⟨5, 3, 6, 5⟩ .javascript sampleFiles).map (·.paths) =
      [["e.js", "d", "f.js"], ["b.css"], ["c.js"]] ∧
    (pack ⟨5, 3, 6, 5⟩ .javascript sampleFiles).Pairwise
      (fun batch later => later.files.length ≤ batch.files.length) ∧
    ∀ before batch next after,
      pack ⟨5, 3, 6, 5⟩ .javascript sampleFiles = before ++ batch :: next :: after →
        batch.files.length < (3 : Int) →
          (∃ f ∈ next.files.head?, (5 : Int) < batch.size + f.size) ∧
            ∀ later ∈ next :: after, later.files.length < (3 : Int) := by
  have hsize : ∀ f ∈ sampleFiles, 0 ≤ f.size := by decide
  have hpaths : (pack ⟨5, 3, 6, 5⟩ .javascript sampleFiles).map (·.paths) =
      [["e.js", "d", "f.js"], ["b.css"], ["c.js"]] := by
    simp [sampleFiles, sampleFile, pack, bySize, List.mergeSort,
      List.MergeSort.Internal.splitInTwo, runs, isFull, fits, totalSize, Batch.paths]
  exact ⟨by decide, hsize, hpaths, pack_tapers (by decide) .javascript hsize⟩

end Plan

end PerfReview
