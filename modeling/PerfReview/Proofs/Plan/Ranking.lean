import Mathlib.Data.List.Nodup
import PerfReview.Proofs.Plan.Files

/-!
# The ranking of files

`Outranks f g` says that `f` is chosen before `g`: by a higher score, or by an earlier discovery at
equal scores. Files in the order of discovery are put in the order of this ranking, so the first `n`
of them are those that fewer than `n` files outrank.
-/

namespace PerfReview

/-! ## Stable sorting -/

theorem filter_mergeSort {α : Type} {le : α → α → Bool}
    (trans : ∀ a b c, le a b = true → le b c = true → le a c = true)
    (total : ∀ a b, (le a b || le b a) = true) {p : α → Bool}
    (h : ∀ a b, p a = true → p b = true → le a b = true) (l : List α) :
    (l.mergeSort le).filter p = l.filter p := by
  have hsorted : (l.filter p).Pairwise fun a b => le a b = true :=
    List.pairwise_of_forall_mem_list fun a ha b hb =>
      h a b (List.mem_filter.1 ha).2 (List.mem_filter.1 hb).2
  have hsub : (l.filter p).Sublist (l.mergeSort le) :=
    List.sublist_mergeSort trans total hsorted List.filter_sublist
  have hfilter := hsub.filter p
  simp only [List.filter_filter, Bool.and_self] at hfilter
  refine (hfilter.eq_of_length ?_).symm
  exact ((List.mergeSort_perm l le).filter p).length_eq.symm

theorem mem_iff_of_filter_key {α : Type} {key : α → Int} {xs ys : List α}
    (h : ∀ n : Int, xs.filter (key · = n) = ys.filter (key · = n)) (a : α) : a ∈ xs ↔ a ∈ ys := by
  have ha : a ∈ xs.filter (key · = key a) ↔ a ∈ ys.filter (key · = key a) := by
    rw [h]
  simpa using ha

/-- Two lists in the order of a key that hold the same elements of each key are the same. -/
theorem eq_of_filter_key {α : Type} {key : α → Int} {xs ys : List α}
    (hx : xs.Pairwise fun a b => key a ≤ key b) (hy : ys.Pairwise fun a b => key a ≤ key b)
    (h : ∀ n : Int, xs.filter (key · = n) = ys.filter (key · = n)) : xs = ys := by
  have hmem := mem_iff_of_filter_key h
  induction xs generalizing ys with
  | nil =>
    cases ys with
    | nil => rfl
    | cons b ys => exact absurd ((hmem b).2 List.mem_cons_self) List.not_mem_nil
  | cons a xs ih =>
    cases ys with
    | nil => exact absurd ((hmem a).1 List.mem_cons_self) List.not_mem_nil
    | cons b ys =>
      obtain ⟨ha, hxs⟩ := List.pairwise_cons.1 hx
      obtain ⟨hb, hys⟩ := List.pairwise_cons.1 hy
      -- each of the two first elements is among the smallest of both lists
      have hab : key a ≤ key b := by
        rcases List.mem_cons.1 ((hmem b).2 List.mem_cons_self) with rfl | hmem
        · exact Int.le_refl _
        · exact ha b hmem
      have hba : key b ≤ key a := by
        rcases List.mem_cons.1 ((hmem a).1 List.mem_cons_self) with rfl | hmem
        · exact Int.le_refl _
        · exact hb a hmem
      have hkey : key b = key a := by omega
      have hfirst := h (key a)
      simp only [List.filter_cons, hkey, decide_true, if_true, List.cons.injEq] at hfirst
      obtain ⟨rfl, -⟩ := hfirst
      have hrest : ∀ n : Int, xs.filter (key · = n) = ys.filter (key · = n) := by
        intro n
        have hn := h n
        by_cases han : key a = n
        · simpa [List.filter_cons, han] using hn
        · simpa [List.filter_cons, han] using hn
      rw [ih hxs hys hrest (mem_iff_of_filter_key hrest)]

/-! ## Ranks -/

/-- The first file is chosen before the second. -/
def Outranks (f g : Source) : Prop :=
  score g.relative g.size < score f.relative f.size ∨
    score f.relative f.size = score g.relative g.size ∧ f.index < g.index

instance (f g : Source) : Decidable (Outranks f g) :=
  inferInstanceAs (Decidable (_ ∨ _))

/-- The number of files that are chosen before a file. -/
def rank (files : List Source) (f : Source) : Nat := files.countP (Outranks · f)

theorem Outranks.asymm {f g : Source} (h : Outranks f g) : ¬ Outranks g f := by
  unfold Outranks at *
  omega

theorem Outranks.irrefl (f : Source) : ¬ Outranks f f := fun h => h.asymm h

variable {files : List Source} {f : Source} {n : Nat}

theorem score_le_trans (f g h : Source)
    (hfg : decide (score g.relative g.size ≤ score f.relative f.size) = true)
    (hgh : decide (score h.relative h.size ≤ score g.relative g.size) = true) :
    decide (score h.relative h.size ≤ score f.relative f.size) = true := by
  simp only [decide_eq_true_eq] at *
  omega

theorem score_le_total (f g : Source) :
    (decide (score g.relative g.size ≤ score f.relative f.size) ||
      decide (score f.relative f.size ≤ score g.relative g.size)) = true := by
  simp only [Bool.or_eq_true, decide_eq_true_eq]
  omega

/-- Files of one score keep their order. -/
theorem filter_prioritize (files : List Source) (k : Int) :
    (prioritize files).filter (fun f => score f.relative f.size = k) =
      files.filter fun f => score f.relative f.size = k := by
  refine filter_mergeSort score_le_trans score_le_total (fun f g hf hg => ?_) files
  simp only [decide_eq_true_eq] at *
  omega

/-- Files stand in the order of falling scores, and those of one score as they came. -/
theorem prioritize_ordered (files : List Source) : (prioritize files).Pairwise fun f g =>
    score g.relative g.size < score f.relative f.size ∨
      score f.relative f.size = score g.relative g.size ∧ [f, g].Sublist files := by
  rw [List.pairwise_iff_forall_sublist]
  intro f g hfg
  have hsorted := List.pairwise_mergeSort score_le_trans score_le_total files
  have hle := of_decide_eq_true (List.pairwise_iff_forall_sublist.1 hsorted hfg)
  rcases Int.lt_or_eq_of_le hle with hlt | heq
  · exact .inl hlt
  · refine .inr ⟨heq.symm, ?_⟩
    have hsame := hfg.filter fun f' => decide (score f'.relative f'.size = score f.relative f.size)
    rw [filter_prioritize] at hsame
    simp only [List.filter_cons, heq, decide_true, if_true, List.filter_nil] at hsame
    exact hsame.trans List.filter_sublist

/-- Files in the order of discovery are put in the order of their ranks. -/
theorem prioritize_pairwise (h : files.Pairwise fun f g => f.index < g.index) :
    (prioritize files).Pairwise Outranks :=
  (prioritize_ordered files).imp fun hfg =>
    hfg.imp_right fun ⟨heq, hsub⟩ => ⟨heq, List.pairwise_iff_forall_sublist.1 h hsub⟩

theorem rank_cons (g : Source) (files : List Source) (f : Source) :
    rank (g :: files) f = rank files f + if Outranks g f then 1 else 0 := by
  simp [rank, List.countP_cons]

/-- In a list in the order of the ranks, the first `n` are those that fewer than `n` outrank. -/
theorem mem_take_iff (h : files.Pairwise Outranks) :
    f ∈ files.take n ↔ f ∈ files ∧ rank files f < n := by
  induction files generalizing n with
  | nil => simp
  | cons g files ih =>
    obtain ⟨hg, hfiles⟩ := List.pairwise_cons.1 h
    have hhead : rank (g :: files) g = 0 :=
      List.countP_eq_zero.2 <| List.forall_mem_cons.2
        ⟨by simpa using Outranks.irrefl g, fun f hf => by simpa using (hg f hf).asymm⟩
    cases n with
    | zero => simp
    | succ n =>
      rw [List.take_succ_cons, List.mem_cons, List.mem_cons, ih hfiles]
      by_cases hfg : f = g
      · subst hfg
        simp [hhead]
      · constructor
        · rintro (rfl | ⟨hf, hrank⟩)
          · exact absurd rfl hfg
          · refine ⟨.inr hf, ?_⟩
            rw [rank_cons, if_pos (hg f hf)]
            omega
        · rintro ⟨hf, hrank⟩
          have hf := hf.resolve_left hfg
          rw [rank_cons, if_pos (hg f hf)] at hrank
          exact .inr ⟨hf, by omega⟩

theorem mem_take_prioritize_iff (h : files.Pairwise fun f g => f.index < g.index) :
    f ∈ (prioritize files).take n ↔ f ∈ files ∧ rank files f < n := by
  have hperm := prioritize_perm files
  rw [mem_take_iff (prioritize_pairwise h), hperm.mem_iff, rank, hperm.countP_eq]
  rfl

end PerfReview
