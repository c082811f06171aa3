import PerfReview.Plan

/-!
# The groups of a plan

The batches of a plan lie group by group. Taken together in the order of the groups they are the
batches of the plan, so that work through the groups is work through the plan.
-/

namespace PerfReview.Plan

variable {b : Bounds} {g g' : Group} {files : List Source}

theorem group_of_mem_pack {batch : Batch} (h : batch ∈ pack b g files) : batch.group = g := by
  obtain ⟨run, -, rfl⟩ := List.mem_map.1 h
  rfl

theorem filter_pack_self : (pack b g files).filter (·.group = g) = pack b g files :=
  List.filter_eq_self.2 fun _ hb => decide_eq_true (group_of_mem_pack hb)

theorem filter_pack_of_ne (h : g' ≠ g) : (pack b g' files).filter (·.group = g) = [] := by
  refine List.filter_eq_nil_iff.2 fun batch hb hg => h ?_
  rw [← group_of_mem_pack hb]
  exact of_decide_eq_true hg

/-- Of batches packed for different groups, those of one group are the ones packed for it. -/
theorem filter_flatMap_pack {gs : List Group} {sort : Group → List Source} (hn : gs.Nodup)
    (h : g ∈ gs) :
    (gs.flatMap fun g => pack b g (sort g)).filter (·.group = g) = pack b g (sort g) := by
  induction gs with
  | nil => cases h
  | cons g' gs ih =>
    obtain ⟨hg', hn⟩ := List.nodup_cons.1 hn
    rw [List.flatMap_cons, List.filter_append]
    rcases List.mem_cons.1 h with rfl | h
    · have hrest : (gs.flatMap fun g => pack b g (sort g)).filter (·.group = g) = [] := by
        rw [List.filter_flatMap]
        refine List.flatMap_eq_nil_iff.2 fun g' hg => filter_pack_of_ne ?_
        rintro rfl
        exact hg' hg
      rw [filter_pack_self, hrest, List.append_nil]
    · have hne : g' ≠ g := by
        rintro rfl
        exact hg' h
      rw [filter_pack_of_ne hne, ih hn h, List.nil_append]

theorem filter_batches : (ofUsable b files).batches.filter (·.group = g) =
    pack b g (ofGroup g (files.take b.maxFiles.toNat)) :=
  filter_flatMap_pack Group.nodup_all (Group.mem_all g)

theorem flatMap_groups : (ofUsable b files).groups.flatMap (·.2) = (ofUsable b files).batches := by
  have drop : ∀ gs : List (Group × List Batch),
      (gs.filter (!·.2.isEmpty)).flatMap (·.2) = gs.flatMap (·.2) := by
    intro gs
    induction gs with
    | nil => rfl
    | cons p gs ih =>
      obtain ⟨g, bs⟩ := p
      cases bs with
      | nil => simpa using ih
      | cons batch bs => simpa using ih
  rw [groups, drop, List.flatMap_map]
  simp only [filter_batches]
  rfl

end PerfReview.Plan
