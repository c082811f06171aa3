import PerfReview.Proofs.Plan.Bounds
import PerfReview.Proofs.Plan.Ranking

/-!
# Where a plan puts each file

`Ascending files sorted`: `sorted` holds the files by size, and files of one size as they came. There
is one such list, and it is the order in which a plan packs the files of a group that fit and skips
those that do not. Packed, skipped, dropped and ungrouped files together are all files.
-/

namespace PerfReview

/-! ## Files by size -/

/-- The files in the order of their sizes; files of one size keep the order in which they came. -/
structure Ascending (files sorted : List Source) : Prop where
  perm : sorted.Perm files
  sizes : sorted.Pairwise fun f g => f.size ≤ g.size
  stable : ∀ n : Int, sorted.filter (·.size = n) = files.filter (·.size = n)

namespace Ascending

variable {files sorted sorted' : List Source}

theorem filter (h : Ascending files sorted) (p : Source → Bool) :
    Ascending (files.filter p) (sorted.filter p) where
  perm := h.perm.filter p
  sizes := h.sizes.filter p
  stable n := by rw [List.filter_comm, h.stable, List.filter_comm]

theorem unique (h : Ascending files sorted) (h' : Ascending files sorted') : sorted = sorted' :=
  eq_of_filter_key h.sizes h'.sizes fun n => (h.stable n).trans (h'.stable n).symm

end Ascending

namespace Plan

variable {b : Bounds} {g : Group} {files : List Source}

theorem ascending_bySize (files : List Source) : Ascending files (bySize files) := by
  have trans : ∀ f g h : Source, decide (f.size ≤ g.size) = true → decide (g.size ≤ h.size) = true →
      decide (f.size ≤ h.size) = true := by
    intro f g h hfg hgh
    simp only [decide_eq_true_eq] at *
    omega
  have total : ∀ f g : Source, (decide (f.size ≤ g.size) || decide (g.size ≤ f.size)) = true := by
    intro f g
    simp only [Bool.or_eq_true, decide_eq_true_eq]
    omega
  constructor
  case perm => exact List.mergeSort_perm files _
  case sizes => exact (List.pairwise_mergeSort trans total files).imp of_decide_eq_true
  case stable =>
    intro n
    refine filter_mergeSort trans total (fun f g hf hg => ?_) files
    simp only [decide_eq_true_eq] at *
    omega

/-! ## Files of a plan -/

/-- A file of the group that a batch can hold. -/
def Packable (b : Bounds) (g : Group) (f : Source) : Prop :=
  f.group = some g ∧ f.size ≤ b.maxFileSize ∧ f.size ≤ b.tokenBudget

/-- A file of the group that no batch can hold. -/
def Oversized (b : Bounds) (g : Group) (f : Source) : Prop :=
  f.group = some g ∧ (b.maxFileSize < f.size ∨ b.tokenBudget < f.size)

instance (b : Bounds) (g : Group) : DecidablePred (Packable b g) := fun _ =>
  inferInstanceAs (Decidable (_ ∧ _))

instance (b : Bounds) (g : Group) : DecidablePred (Oversized b g) := fun _ =>
  inferInstanceAs (Decidable (_ ∧ _))

theorem filter_fits_ofGroup (b : Bounds) (g : Group) (files : List Source) :
    (ofGroup g files).filter (fits b) = files.filter (Packable b g) := by
  rw [ofGroup, List.filter_filter]
  refine List.filter_congr fun f _ => ?_
  rw [Bool.eq_iff_iff, decide_eq_true_iff]
  simp only [Bool.and_eq_true, fits, decide_eq_true_eq]
  exact And.comm

theorem filter_not_fits_ofGroup (b : Bounds) (g : Group) (files : List Source) :
    (ofGroup g files).filter (fun f => !fits b f) = files.filter (Oversized b g) := by
  rw [ofGroup, List.filter_filter]
  refine List.filter_congr fun f _ => ?_
  rw [Bool.eq_iff_iff, decide_eq_true_iff]
  simp only [Bool.and_eq_true, Bool.not_eq_true', fits, Bool.and_eq_false_iff,
    decide_eq_false_iff_not, decide_eq_true_eq, Int.not_le]
  exact And.comm

/-- Where the files of a list are in a plan for it. -/
structure Places (b : Bounds) (files : List Source) (p : Plan) : Prop where
  dropped : p.dropped = files.drop b.maxFiles.toNat
  packed : ∀ g, Ascending ((files.take b.maxFiles.toNat).filter (Packable b g))
    ((p.batches.filter (·.group = g)).flatMap (·.files))
  skipped : ∃ large : Group → List Source, p.skipped = Group.all.flatMap large ∧
    ∀ g, Ascending ((files.take b.maxFiles.toNat).filter (Oversized b g)) (large g)
  conserved : (p.files ++ p.skipped ++ p.dropped ++
    (files.take b.maxFiles.toNat).filter (·.group = none)).Perm files

theorem ascending_packed (b : Bounds) (g : Group) (files : List Source) :
    Ascending (files.filter (Packable b g)) ((pack b g (ofGroup g files)).flatMap (·.files)) := by
  rw [files_pack, ← filter_fits_ofGroup]
  exact (ascending_bySize (ofGroup g files)).filter (fits b)

theorem ascending_skipped (b : Bounds) (g : Group) (files : List Source) :
    Ascending (files.filter (Oversized b g))
      ((bySize (ofGroup g files)).filter fun f => !fits b f) := by
  rw [← filter_not_fits_ofGroup]
  exact (ascending_bySize (ofGroup g files)).filter fun f => !fits b f

/-- No file is lost or put in two places. -/
theorem placed_append_ungrouped_perm (b : Bounds) (files : List Source) :
    ((ofUsable b files).files ++ (ofUsable b files).skipped ++ (ofUsable b files).dropped ++
      (files.take b.maxFiles.toNat).filter (·.group = none)).Perm files := by
  have hungrouped : (files.take b.maxFiles.toNat).filter (·.group = none) =
      (files.take b.maxFiles.toNat).filter fun f => !f.group.isSome := by
    refine List.filter_congr fun f _ => ?_
    cases f.group <;> rfl
  have htake : ((files.take b.maxFiles.toNat).filter (·.group.isSome) ++
      (files.take b.maxFiles.toNat).filter (·.group = none)).Perm (files.take b.maxFiles.toNat) := by
    rw [hungrouped]
    exact List.filter_append_perm _ _
  -- the ungrouped files move from behind the dropped ones to the others among the first
  have hmove : ((files.take b.maxFiles.toNat).filter (·.group.isSome) ++
      files.drop b.maxFiles.toNat ++ (files.take b.maxFiles.toNat).filter (·.group = none)).Perm
        ((files.take b.maxFiles.toNat).filter (·.group.isSome) ++
          (files.take b.maxFiles.toNat).filter (·.group = none) ++ files.drop b.maxFiles.toNat) := by
    rw [List.append_assoc, List.append_assoc]
    exact List.perm_append_comm.append_left _
  have hall := htake.append_right (files.drop b.maxFiles.toNat)
  rw [List.take_append_drop] at hall
  exact ((placed_perm b files).append_right _).trans (hmove.trans hall)

/-- A plan can be made under bounds that are positive, and it puts every file in one place: in a
batch of its group or among the skipped files, by size, among the dropped files, or nowhere for want
of a group. -/
theorem make?_places (hb : b.Usable) (files : List Source) :
    ∃ plan, Plan.make? b files = some plan ∧ plan.Places b files := by
  refine ⟨ofUsable b files, if_pos hb, ?_⟩
  constructor
  case dropped => rfl
  case packed =>
    intro g
    rw [filter_batches]
    exact ascending_packed b g _
  case skipped => exact ⟨_, rfl, fun g => ascending_skipped b g _⟩
  case conserved => exact placed_append_ungrouped_perm b files

theorem make?_places_sample : (⟨5, 2, 6, 12⟩ : Bounds).Usable ∧
    ∃ plan, Plan.make? ⟨5, 2, 6, 12⟩ sampleFiles = some plan ∧
      plan.Places ⟨5, 2, 6, 12⟩ sampleFiles ∧
      plan.batches.map (·.paths) = [["e.js", "c.js"], ["b.css"]] ∧
      plan.skipped.map (·.relative) = ["a.js"] ∧ plan.dropped.map (·.relative) = ["f.js"] := by
  obtain ⟨plan, hplan, hplaces⟩ := make?_places (b := ⟨5, 2, 6, 12⟩) (by decide) sampleFiles
  have hmade : Plan.make? ⟨5, 2, 6, 12⟩ sampleFiles = some (ofUsable ⟨5, 2, 6, 12⟩ sampleFiles) :=
    if_pos (by decide)
  cases Option.some.inj (hplan.symm.trans hmade)
  refine ⟨by decide, _, hplan, hplaces, ?_, ?_, rfl⟩
  all_goals
    simp [ofUsable, sampleFiles, sampleFile, Group.all, pack, ofGroup, bySize, List.mergeSort,
      List.MergeSort.Internal.splitInTwo, runs, isFull, fits, totalSize, Batch.paths]

end Plan

end PerfReview
