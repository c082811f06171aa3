import Mathlib.Data.List.Nodup
import Mathlib.Data.List.Perm.Basic
import PerfReview.Plan

/-!
# The files of a plan

The batches of a group hold the files of the group that fit, in the order of their sizes. A plan for
files with different paths takes up no path twice.
-/

namespace PerfReview

theorem prioritize_perm (files : List Source) : (prioritize files).Perm files :=
  List.mergeSort_perm files _

namespace Plan

variable {b : Bounds} {g : Group} {files : List Source}

theorem flatten_runs (b : Bounds) (current files : List Source) :
    (runs b current files).flatten = current ++ files := by
  induction files generalizing current with
  | nil =>
    rw [runs]
    split
    · rename_i h
      rw [List.isEmpty_iff.1 h]
      rfl
    · simp
  | cons f files ih =>
    rw [runs]
    split
    · rw [List.flatten_cons, ih]
      rfl
    · rw [ih, List.append_assoc]
      rfl

theorem files_pack (b : Bounds) (g : Group) (files : List Source) :
    (pack b g files).flatMap (·.files) = (bySize files).filter (fits b) := by
  calc (pack b g files).flatMap (·.files)
    _ = (runs b [] ((bySize files).filter (fits b))).flatMap id := by
      rw [pack, List.flatMap_map]
      rfl
    _ = (bySize files).filter (fits b) := by
      rw [List.flatMap_id, flatten_runs, List.nil_append]

theorem files_ofUsable (b : Bounds) (files : List Source) : (ofUsable b files).files =
    Group.all.flatMap fun g =>
      (bySize (ofGroup g (files.take b.maxFiles.toNat))).filter (fits b) := by
  simp only [Plan.files, ofUsable, List.flatMap_assoc, files_pack]

theorem mem_of_mem_bySize {f : Source}
    (h : f ∈ (bySize (ofGroup g files)).filter (fits b)) : f ∈ files ∧ f.group = some g := by
  have h := (List.mergeSort_perm _ _).mem_iff.1 (List.mem_of_mem_filter h)
  obtain ⟨hmem, hg⟩ := List.mem_filter.1 h
  exact ⟨hmem, of_decide_eq_true hg⟩

/-- Files sorted by group, one group after the other. -/
theorem flatMap_ofGroup_perm (files : List Source) :
    (Group.all.flatMap fun g => ofGroup g files).Perm (files.filter (·.group.isSome)) := by
  induction files with
  | nil => exact .nil
  | cons f files ih =>
    have hsplit : (fun g => ofGroup g (f :: files)) =
        fun g => (if f.group = some g then [f] else []) ++ ofGroup g files := by
      funext g
      by_cases h : f.group = some g <;> simp [ofGroup, h]
    have hone : (Group.all.flatMap fun g => if f.group = some g then [f] else []) =
        [f].filter (·.group.isSome) := by
      cases h : f.group with
      | none => simp [h]
      | some g => cases g <;> simp [Group.all, h]
    have hcons : (f :: files).filter (·.group.isSome) =
        [f].filter (·.group.isSome) ++ files.filter (·.group.isSome) :=
      List.filter_append [f] files
    rw [hsplit, hcons, ← hone]
    exact (List.flatMap_append_perm _ _ _).symm.trans (ih.append_left _)

/-- The files of the batches and the skipped ones are the first files that have a group. -/
theorem files_append_skipped_perm (b : Bounds) (files : List Source) :
    ((ofUsable b files).files ++ (ofUsable b files).skipped).Perm
      ((files.take b.maxFiles.toNat).filter (·.group.isSome)) := by
  have hskipped : (ofUsable b files).skipped = Group.all.flatMap fun g =>
      (bySize (ofGroup g (files.take b.maxFiles.toNat))).filter fun f => !fits b f := rfl
  have hgroup : ∀ g ∈ Group.all,
      ((bySize (ofGroup g (files.take b.maxFiles.toNat))).filter (fits b) ++
        (bySize (ofGroup g (files.take b.maxFiles.toNat))).filter fun f => !fits b f).Perm
          (ofGroup g (files.take b.maxFiles.toNat)) := fun g _ =>
    (List.filter_append_perm _ _).trans (List.mergeSort_perm _ _)
  rw [files_ofUsable, hskipped]
  exact (List.flatMap_append_perm _ _ _).trans
    ((List.Perm.flatMap_left _ hgroup).trans (flatMap_ofGroup_perm _))

/-- The files of a plan are the first files that have a group and all files after these. -/
theorem placed_perm (b : Bounds) (files : List Source) :
    ((ofUsable b files).files ++ (ofUsable b files).skipped ++ (ofUsable b files).dropped).Perm
      ((files.take b.maxFiles.toNat).filter (·.group.isSome) ++ files.drop b.maxFiles.toNat) :=
  (files_append_skipped_perm b files).append_right _

theorem placed_nodup (b : Bounds) {files : List Source} (h : files.Nodup) :
    ((ofUsable b files).files ++ (ofUsable b files).skipped ++ (ofUsable b files).dropped).Nodup := by
  refine (placed_perm b files).nodup_iff.2 (h.sublist ?_)
  have hsub := (List.filter_sublist (p := fun f : Source => f.group.isSome)
    (l := files.take b.maxFiles.toNat)).append (List.Sublist.refl (files.drop b.maxFiles.toNat))
  rwa [List.take_append_drop] at hsub

/-- A plan leaves out the files without a group that are among the first. -/
theorem mem_placed_iff (b : Bounds) {files : List Source} (h : files.Nodup) {f : Source} :
    f ∈ (ofUsable b files).files ++ (ofUsable b files).skipped ++ (ofUsable b files).dropped ↔
      f ∈ files ∧ ¬ (f ∈ files.take b.maxFiles.toNat ∧ f.group = none) := by
  rw [(placed_perm b files).mem_iff, List.mem_append, List.mem_filter]
  have hsplit : f ∈ files ↔ f ∈ files.take b.maxFiles.toNat ∨ f ∈ files.drop b.maxFiles.toNat := by
    rw [← List.mem_append, List.take_append_drop]
  rw [← List.take_append_drop b.maxFiles.toNat files] at h
  have hdisjoint := (List.nodup_append.1 h).2.2 f
  rw [hsplit, Option.isSome_iff_ne_none]
  constructor
  · rintro (⟨hf, hgroup⟩ | hf)
    · exact ⟨.inl hf, fun h => hgroup h.2⟩
    · exact ⟨.inr hf, fun h => hdisjoint h.1 f hf rfl⟩
  · rintro ⟨hf | hf, hnot⟩
    · exact .inl ⟨hf, fun hgroup => hnot ⟨hf, hgroup⟩⟩
    · exact .inr hf

theorem files_nodup (b : Bounds) (h : (files.map (·.relative)).Nodup) :
    ((ofUsable b files).files.map (·.relative)).Nodup := by
  have htake : ((files.take b.maxFiles.toNat).map (·.relative)).Nodup :=
    h.sublist ((List.take_sublist _ _).map _)
  rw [files_ofUsable, List.map_flatMap, List.nodup_flatMap]
  constructor
  · intro g _
    have hgroup : ((ofGroup g (files.take b.maxFiles.toNat)).map (·.relative)).Nodup :=
      htake.sublist (List.filter_sublist.map _)
    have hsort := (List.mergeSort_perm (ofGroup g (files.take b.maxFiles.toNat))
      fun a b => a.size ≤ b.size).map (·.relative)
    exact (hsort.nodup_iff.2 hgroup).sublist (List.filter_sublist.map _)
  · refine Group.nodup_all.imp fun {g g'} hne x hx hx' => ?_
    obtain ⟨f, hf, rfl⟩ := List.mem_map.1 hx
    obtain ⟨f', hf', e⟩ := List.mem_map.1 hx'
    obtain ⟨hmem, hg⟩ := mem_of_mem_bySize hf
    obtain ⟨hmem', hg'⟩ := mem_of_mem_bySize hf'
    have hff : f' = f := List.inj_on_of_nodup_map htake hmem' hmem e
    rw [hff, hg] at hg'
    exact hne (Option.some.inj hg')

end Plan

end PerfReview
