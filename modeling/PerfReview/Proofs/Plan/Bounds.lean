import Mathlib.Data.List.Nodup
import PerfReview.Proofs.Assoc
import PerfReview.Proofs.Plan.Files
import PerfReview.Proofs.Plan.Groups

/-!
# Plans within their bounds

A run under construction is closed before it outgrows the bounds, so every batch of a plan keeps to
them. The batches lie group by group in the order of the groups: gathered by group, in the order in
which the groups first come, and put together again, they are the batches of the plan.
-/

namespace PerfReview

/-! ## Runs -/

theorem totalSize_append (xs ys : List Source) :
    totalSize (xs ++ ys) = totalSize xs + totalSize ys := by
  induction xs with
  | nil => simp [totalSize]
  | cons f xs ih =>
    show f.size + totalSize (xs ++ ys) = f.size + totalSize xs + totalSize ys
    omega

theorem totalSize_singleton (f : Source) : totalSize [f] = f.size := by
  simp [totalSize]

/-- The files are neither too many nor too much for one batch. -/
def Bounds.Hold (b : Bounds) (files : List Source) : Prop :=
  files.length ≤ b.batchSize ∧ totalSize files ≤ b.tokenBudget

instance (b : Bounds) (files : List Source) : Decidable (b.Hold files) :=
  inferInstanceAs (Decidable (_ ∧ _))

namespace Plan

variable {b : Bounds} {g : Group} {files current : List Source} {f : Source}

theorem fits_iff : fits b f = true ↔ f.size ≤ b.maxFileSize ∧ f.size ≤ b.tokenBudget := by
  simp [fits]

theorem filter_fits (b : Bounds) (files : List Source) :
    (files.filter fun f => f.size ≤ b.maxFileSize ∧ f.size ≤ b.tokenBudget) =
      files.filter (fits b) :=
  List.filter_congr fun f _ => by rw [fits, Bool.decide_and]

theorem hold_nil (hb : b.Usable) : b.Hold [] := by
  obtain ⟨-, hcount, -, hbudget⟩ := hb
  exact ⟨Int.le_of_lt hcount, Int.le_of_lt hbudget⟩

theorem hold_singleton (hb : b.Usable) (h : fits b f = true) : b.Hold [f] := by
  obtain ⟨-, hcount, -, -⟩ := hb
  have hf := (fits_iff.1 h).2
  refine ⟨?_, ?_⟩
  · simp only [List.length_singleton]
    omega
  · rwa [totalSize_singleton]

theorem hold_concat (h : isFull b current f = false) : b.Hold (current ++ [f]) := by
  simp only [isFull, Bool.or_eq_false_iff, decide_eq_false_iff_not] at h
  obtain ⟨hcount, hsize⟩ := h
  refine ⟨?_, ?_⟩
  · rw [List.length_append, List.length_singleton]
    omega
  · rw [totalSize_append, totalSize_singleton]
    omega

theorem hold_of_mem_runs (hb : b.Usable) (hc : b.Hold current)
    (hf : ∀ f ∈ files, fits b f = true) {run : List Source} (h : run ∈ runs b current files) :
    run ≠ [] ∧ b.Hold run := by
  induction files generalizing current with
  | nil =>
    rw [runs] at h
    split at h
    · cases h
    · rename_i hne
      cases List.mem_singleton.1 h
      exact ⟨by simpa using hne, hc⟩
  | cons f files ih =>
    obtain ⟨hfit, hfiles⟩ := List.forall_mem_cons.1 hf
    rw [runs] at h
    split at h
    · rename_i hfull
      simp only [Bool.and_eq_true, Bool.not_eq_true', List.isEmpty_eq_false_iff] at hfull
      rcases List.mem_cons.1 h with rfl | h
      · exact ⟨hfull.1, hc⟩
      · exact ih (hold_singleton hb hfit) hfiles h
    · rename_i hfull
      refine ih ?_ hfiles h
      cases current with
      | nil => exact hold_singleton hb hfit
      | cons f' current => exact hold_concat (by simpa using hfull)

/-! ## Batches of a group -/

/-- What a batch packed for a group keeps to. -/
theorem within_of_mem_pack (hb : b.Usable) {batch : Batch}
    (h : batch ∈ pack b g (ofGroup g files)) :
    batch.group = g ∧ batch.files ≠ [] ∧ b.Hold batch.files ∧
      ∀ f ∈ batch.files, f.group = some g ∧ f.size ≤ b.maxFileSize := by
  have hfiles : ∀ f ∈ batch.files, f ∈ (bySize (ofGroup g files)).filter (fits b) := by
    intro f hf
    rw [← files_pack b g]
    exact List.mem_flatMap_of_mem h hf
  have hgroup := group_of_mem_pack h
  obtain ⟨run, hrun, rfl⟩ := List.mem_map.1 h
  obtain ⟨hne, hhold⟩ :=
    hold_of_mem_runs hb (hold_nil hb) (fun f hf => (List.mem_filter.1 hf).2) hrun
  refine ⟨hgroup, hne, hhold, fun f hf => ?_⟩
  have hf := hfiles f hf
  exact ⟨(mem_of_mem_bySize hf).2, (fits_iff.1 (List.mem_filter.1 hf).2).1⟩

end Plan

/-! ## Gathering batches by group -/

namespace Batch

/-- A batch at the end of the batches of its group. -/
def collect (m : List (Group × List Batch)) (batch : Batch) : List (Group × List Batch) :=
  Assoc.put batch.group ((Assoc.get? m batch.group).getD [] ++ [batch]) m

/-- Batches gathered by group; the groups stand in the order in which they first come. -/
def gather (batches : List Batch) : List (Group × List Batch) := batches.foldl collect []

variable {m : List (Group × List Batch)} {g : Group} {bs : List Batch}

theorem foldl_collect (hg : g ∉ m.map (·.1)) (before : List Batch)
    (h : ∀ batch ∈ bs, batch.group = g) :
    bs.foldl collect (m ++ [(g, before)]) = m ++ [(g, before ++ bs)] := by
  induction bs generalizing before with
  | nil => rw [List.append_nil]; rfl
  | cons batch bs ih =>
    obtain ⟨rfl, hbs⟩ := List.forall_mem_cons.1 h
    have hstep : collect (m ++ [(batch.group, before)]) batch =
        m ++ [(batch.group, before ++ [batch])] := by
      rw [collect, Assoc.get?_append hg, Assoc.put_append hg]
      simp [Assoc.get?_cons, Assoc.put]
    rw [List.foldl_cons, hstep, ih _ hbs, List.append_assoc]
    rfl

theorem gather_flatMap {gs : List (Group × List Batch)} (hn : (gs.map (·.1)).Nodup)
    (h : ∀ e ∈ gs, e.2 ≠ [] ∧ ∀ batch ∈ e.2, batch.group = e.1) :
    gather (gs.flatMap (·.2)) = gs := by
  suffices ∀ m : List (Group × List Batch), (m.map (·.1) ++ gs.map (·.1)).Nodup →
      (gs.flatMap (·.2)).foldl collect m = m ++ gs from this [] hn
  clear hn
  induction gs with
  | nil =>
    intro m _
    rw [List.append_nil]
    rfl
  | cons e gs ih =>
    intro m hm
    obtain ⟨g, bs⟩ := e
    obtain ⟨⟨hne, hgroup⟩, hgs⟩ := List.forall_mem_cons.1 h
    have hg : g ∉ m.map (·.1) := fun hmem =>
      (List.nodup_append.1 hm).2.2 g hmem g List.mem_cons_self rfl
    obtain ⟨batch, bs, rfl⟩ := List.exists_cons_of_ne_nil hne
    obtain ⟨rfl, hbs⟩ := List.forall_mem_cons.1 hgroup
    have hfirst : collect m batch = m ++ [(batch.group, [batch])] := by
      rw [collect, Assoc.get?_eq_none hg]
      exact Assoc.put_of_notMem hg
    rw [List.flatMap_cons, List.foldl_append, List.foldl_cons, hfirst,
      foldl_collect hg [batch] hbs, ih hgs _ (by simpa using hm), List.append_assoc]
    rfl

end Batch

/-! ## Plans -/

namespace Plan

variable {b : Bounds} {files : List Source}

theorem groups_eq (b : Bounds) (files : List Source) : (ofUsable b files).groups =
    (Group.all.map fun g => (g, pack b g (ofGroup g (files.take b.maxFiles.toNat)))).filter
      (!·.2.isEmpty) := by
  simp only [groups, filter_batches]

theorem gather_batches (b : Bounds) (files : List Source) :
    Batch.gather (ofUsable b files).batches = (ofUsable b files).groups := by
  rw [← flatMap_groups]
  refine Batch.gather_flatMap ?_ fun e he => ?_
  · have hkeys : ((ofUsable b files).groups.map (·.1)).Sublist Group.all := by
      have hsub := (List.filter_sublist (p := fun e : Group × List Batch => !e.2.isEmpty)
        (l := Group.all.map fun g =>
          (g, pack b g (ofGroup g (files.take b.maxFiles.toNat))))).map (·.1)
      rw [List.map_map] at hsub
      rw [groups_eq]
      simpa [Function.comp_def] using hsub
    exact Group.nodup_all.sublist hkeys
  · rw [groups_eq] at he
    obtain ⟨hmem, hne⟩ := List.mem_filter.1 he
    obtain ⟨g, -, rfl⟩ := List.mem_map.1 hmem
    exact ⟨by simpa using hne, fun _ hbatch => group_of_mem_pack hbatch⟩

/-- What a plan for files keeps to. -/
structure Within (b : Bounds) (files : List Source) (p : Plan) : Prop where
  nonempty : ∀ batch ∈ p.batches, batch.files ≠ []
  count : ∀ batch ∈ p.batches, batch.files.length ≤ b.batchSize
  size : ∀ batch ∈ p.batches, batch.size ≤ b.tokenBudget
  fileSize : ∀ batch ∈ p.batches, ∀ f ∈ batch.files, f.size ≤ b.maxFileSize
  group : ∀ batch ∈ p.batches, ∀ f ∈ batch.files, f.group = some batch.group
  /-- The batches lie in the order of their groups. -/
  ordered : p.batches.Pairwise fun c d => Group.all.idxOf c.group ≤ Group.all.idxOf d.group
  groups : p.groups = Batch.gather p.batches
  gathered : (Batch.gather p.batches).flatMap (·.2) = p.batches
  total : p.files.length ≤ b.maxFiles
  /-- No file is left out that has a group and fits, if it is among the first. -/
  complete : ∀ f ∈ files.take b.maxFiles.toNat, f.group.isSome = true → f.size ≤ b.maxFileSize →
    f.size ≤ b.tokenBudget → f ∈ p.files

theorem ordered_batches (b : Bounds) (files : List Source) : (ofUsable b files).batches.Pairwise
    fun c d => Group.all.idxOf c.group ≤ Group.all.idxOf d.group := by
  refine List.pairwise_flatMap.2 ⟨fun g _ => ?_, ?_⟩
  · refine List.pairwise_of_forall_mem_list fun c hc d hd => ?_
    exact Nat.le_of_eq (by rw [group_of_mem_pack hc, group_of_mem_pack hd])
  · have hall : Group.all.Pairwise fun g g' => Group.all.idxOf g ≤ Group.all.idxOf g' := by decide
    refine hall.imp fun {g g'} hle c hc d hd => ?_
    rwa [group_of_mem_pack hc, group_of_mem_pack hd]

theorem length_files_le (hb : b.Usable) (files : List Source) :
    (ofUsable b files).files.length ≤ b.maxFiles := by
  have hperm := (files_append_skipped_perm b files).length_eq
  have hfilter := List.length_filter_le (·.group.isSome) (files.take b.maxFiles.toNat)
  rw [List.length_append] at hperm
  rw [List.length_take] at hfilter
  obtain ⟨hmax, -⟩ := hb
  omega

theorem fits_of_mem_skipped {f : Source} (h : f ∈ (ofUsable b files).skipped) :
    fits b f = false := by
  obtain ⟨g, -, hf⟩ := List.mem_flatMap.1 h
  simpa using (List.mem_filter.1 hf).2

/-- A plan can be made for any files under bounds that are positive, and it keeps to them. -/
theorem make?_within (hb : b.Usable) (files : List Source) :
    ∃ plan, Plan.make? b files = some plan ∧ plan.Within b files := by
  have hpacked : ∀ batch ∈ (ofUsable b files).batches, ∃ g,
      batch ∈ pack b g (ofGroup g (files.take b.maxFiles.toNat)) := by
    intro batch hbatch
    obtain ⟨g, -, hbatch⟩ := List.mem_flatMap.1 hbatch
    exact ⟨g, hbatch⟩
  have hbatches : ∀ batch ∈ (ofUsable b files).batches, batch.files ≠ [] ∧ b.Hold batch.files ∧
      ∀ f ∈ batch.files, f.group = some batch.group ∧ f.size ≤ b.maxFileSize := by
    intro batch hbatch
    obtain ⟨g, hbatch⟩ := hpacked batch hbatch
    obtain ⟨rfl, hwithin⟩ := within_of_mem_pack hb hbatch
    exact hwithin
  refine ⟨ofUsable b files, if_pos hb, ?_⟩
  constructor
  case nonempty => exact fun batch h => (hbatches batch h).1
  case count => exact fun batch h => (hbatches batch h).2.1.1
  case size => exact fun batch h => (hbatches batch h).2.1.2
  case fileSize => exact fun batch h f hf => ((hbatches batch h).2.2 f hf).2
  case group => exact fun batch h f hf => ((hbatches batch h).2.2 f hf).1
  case ordered => exact ordered_batches b files
  case groups => exact (gather_batches b files).symm
  case gathered => rw [gather_batches, flatMap_groups]
  case total => exact length_files_le hb files
  case complete =>
    intro f hf hgroup hsize hbudget
    have hmem := (files_append_skipped_perm b files).mem_iff.2 (List.mem_filter.2 ⟨hf, hgroup⟩)
    rcases List.mem_append.1 hmem with hmem | hmem
    · exact hmem
    · have hfits := fits_of_mem_skipped hmem
      rw [fits_iff.2 ⟨hsize, hbudget⟩] at hfits
      cases hfits

def sampleFile (name : String) (size : Int) (group : Option Group) (index : Nat) : Source where
  path := name
  relative := name
  size := size
  extension := ""
  group := group
  index := index
  reading := ⟨"", none⟩

/-- Two scripts that fill a batch, one more of no bytes, a style sheet, a file without a group, and
one beyond the bound. -/
def sampleFiles : List Source := [
  sampleFile "a.js" 7 (some .javascript) 0, sampleFile "b.css" 3 (some .stylesheet) 1,
  sampleFile "c.js" 5 (some .javascript) 2, sampleFile "d" 1 none 3,
  sampleFile "e.js" 0 (some .javascript) 4, sampleFile "f.js" 1 (some .javascript) 5]

theorem make?_within_sample : (⟨5, 2, 10, 12⟩ : Bounds).Usable ∧
    ∃ plan, Plan.make? ⟨5, 2, 10, 12⟩ sampleFiles = some plan ∧
      plan.Within ⟨5, 2, 10, 12⟩ sampleFiles ∧
      plan.batches.map (·.paths) = [["e.js", "c.js"], ["a.js"], ["b.css"]] := by
  obtain ⟨plan, hplan, hwithin⟩ := make?_within (b := ⟨5, 2, 10, 12⟩) (by decide) sampleFiles
  have hmade : Plan.make? ⟨5, 2, 10, 12⟩ sampleFiles = some (ofUsable ⟨5, 2, 10, 12⟩ sampleFiles) :=
    if_pos (by decide)
  have hpaths : (ofUsable ⟨5, 2, 10, 12⟩ sampleFiles).batches.map (·.paths) =
      [["e.js", "c.js"], ["a.js"], ["b.css"]] := by
    simp [ofUsable, sampleFiles, sampleFile, Group.all, pack, ofGroup, bySize, List.mergeSort,
      List.MergeSort.Internal.splitInTwo, runs, isFull, fits, totalSize, Batch.paths]
  cases Option.some.inj (hplan.symm.trans hmade)
  exact ⟨by decide, _, hplan, hwithin, hpaths⟩

end Plan

end PerfReview
