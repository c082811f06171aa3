import PerfReview.Proofs.Plan.Bounds
import PerfReview.Proofs.Plan.Ranking

/-!
# The cap on the number of files

The first `n` files in the order of priority are chosen. A file stands behind the files that score
higher and behind those before it that score the same, whatever the order of the others is, so a
file that comes to score higher moves to the front only, and the other chosen files stay chosen.
-/

namespace PerfReview

variable {files before mid after : List Source} {f g : Source} {k : Int} {n : Nat}

abbrev Source.priority (f : Source) : Int := score f.relative f.size

/-- In a list of different files, the first of two stands at the earlier place. -/
theorem idxOf_lt_of_sublist (hd : files.Nodup) (h : [f, g].Sublist files) :
    files.idxOf f < files.idxOf g := by
  obtain ⟨front, back, rfl, hf, hg⟩ := List.cons_sublist_iff.1 h
  have hg : g ∈ back := List.singleton_sublist.1 hg
  have hout : g ∉ front := fun hmem => (List.nodup_append.1 hd).2.2 g hmem g hg rfl
  rw [List.idxOf_append_of_mem hf, List.idxOf_append_of_notMem hout]
  have := List.idxOf_lt_length_of_mem hf
  omega

/-! ## The place of a file -/

/-- The files ahead of a file of priority `k` that lies between the others. -/
def ahead (k : Int) (before after : List Source) : List Source :=
  before.filter (fun f => k ≤ f.priority) ++ after.filter fun f => k < f.priority

/-- The files behind a file of priority `k` that lies between the others. -/
def behind (k : Int) (before after : List Source) : List Source :=
  before.filter (fun f => f.priority < k) ++ after.filter fun f => f.priority ≤ k

theorem le_of_mem_ahead (h : f ∈ ahead k before after) : k ≤ f.priority := by
  simp only [ahead, List.mem_append, List.mem_filter, decide_eq_true_eq] at h
  omega

theorem le_of_mem_behind (h : f ∈ behind k before after) : f.priority ≤ k := by
  simp only [behind, List.mem_append, List.mem_filter, decide_eq_true_eq] at h
  omega

theorem length_ahead_le {k' : Int} (h : k ≤ k') (before after : List Source) :
    (ahead k' before after).length ≤ (ahead k before after).length := by
  unfold ahead
  rw [List.length_append, List.length_append]
  refine Nat.add_le_add (List.Sublist.length_le ?_) (List.Sublist.length_le ?_)
  · refine List.monotone_filter_right before fun f hf => ?_
    simp only [decide_eq_true_eq] at *
    omega
  · refine List.monotone_filter_right after fun f hf => ?_
    simp only [decide_eq_true_eq] at *
    omega

theorem filter_filter_priority (p : Int → Bool) (m : Int) (files : List Source) :
    (files.filter fun f => p f.priority).filter (·.priority = m) =
      if p m then files.filter (·.priority = m) else [] := by
  rw [List.filter_filter]
  split
  · rename_i hm
    refine List.filter_congr fun f _ => ?_
    by_cases hf : f.priority = m
    · rw [hf, hm, Bool.and_true]
    · simp [hf]
  · rename_i hm
    refine List.filter_eq_nil_iff.2 fun f _ => ?_
    by_cases hf : f.priority = m
    · simp [hf, hm]
    · simp [hf]

/-- Of each priority, the files ahead, those in the middle and those behind lie as they did. -/
theorem filter_around (hmid : ∀ f ∈ mid, f.priority = k) (m : Int) :
    (ahead k before after ++ mid ++ behind k before after).filter (·.priority = m) =
      (before ++ mid ++ after).filter (·.priority = m) := by
  have hahead := filter_filter_priority (fun p => decide (k ≤ p)) m before
  have hahead' := filter_filter_priority (fun p => decide (k < p)) m after
  have hbehind := filter_filter_priority (fun p => decide (p < k)) m before
  have hbehind' := filter_filter_priority (fun p => decide (p ≤ k)) m after
  simp only [ahead, behind, List.filter_append]
  rw [hahead, hahead', hbehind, hbehind']
  by_cases hm : m = k
  · subst hm
    simp
  · have hnone : mid.filter (·.priority = m) = [] := by
      refine List.filter_eq_nil_iff.2 fun f hf => ?_
      rw [hmid f hf, decide_eq_true_eq]
      exact fun e => hm e.symm
    rw [hnone]
    rcases Int.lt_or_gt_of_ne hm with hlt | hgt
    · simp [Int.not_le.2 hlt, Int.not_lt.2 (Int.le_of_lt hlt), hlt, Int.le_of_lt hlt]
    · simp [Int.not_le.2 hgt, Int.not_lt.2 (Int.le_of_lt hgt), hgt, Int.le_of_lt hgt]

/-- Files of one priority stand together, between those ahead of them and those behind. -/
theorem prioritize_around (before after : List Source) (hmid : ∀ f ∈ mid, f.priority = k) :
    prioritize (before ++ mid ++ after) =
      prioritize (ahead k before after) ++ mid ++ prioritize (behind k before after) := by
  have hfall : ∀ files : List Source,
      (prioritize files).Pairwise fun f g => -f.priority ≤ -g.priority := fun files =>
    (prioritize_ordered files).imp fun h => by unfold Source.priority; omega
  have hmem : ∀ {f : Source} {files : List Source}, f ∈ prioritize files → f ∈ files :=
    fun h => (prioritize_perm _).mem_iff.1 h
  refine eq_of_filter_key (hfall _) ?_ fun m => ?_
  · refine List.pairwise_append.2 ⟨List.pairwise_append.2 ⟨hfall _, ?_, ?_⟩, hfall _, ?_⟩
    · refine List.pairwise_of_forall_mem_list fun f hf g hg => ?_
      have := hmid f hf
      have := hmid g hg
      omega
    · intro f hf g hg
      have := le_of_mem_ahead (hmem hf)
      rw [hmid g hg]
      omega
    · intro f hf g hg
      have hle := le_of_mem_behind (hmem hg)
      rcases List.mem_append.1 hf with hf | hf
      · have := le_of_mem_ahead (hmem hf)
        omega
      · rw [hmid f hf]
        omega
  · have hneg : ∀ f : Source, decide (-f.priority = m) = decide (f.priority = -m) := fun f =>
      decide_eq_decide.2 (by omega)
    simp only [hneg]
    rw [filter_prioritize, ← filter_around hmid, List.filter_append, List.filter_append,
      List.filter_append, List.filter_append, filter_prioritize, filter_prioritize]

/-- A file takes its place among the others, which keep theirs. -/
theorem exists_prioritize_eq (before after : List Source) (f : Source) :
    ∃ front back, prioritize (before ++ f :: after) = front ++ f :: back ∧
      prioritize (before ++ after) = front ++ back ∧
      front.length = (ahead f.priority before after).length := by
  have hsingle : ∀ g ∈ [f], g.priority = f.priority := by simp
  have hempty : ∀ g ∈ ([] : List Source), g.priority = f.priority := by simp
  have hone := prioritize_around before after hsingle
  have hnone := prioritize_around before after hempty
  simp only [List.append_assoc, List.singleton_append, List.nil_append] at hone hnone
  exact ⟨_, _, hone, hnone, (prioritize_perm _).length_eq⟩

/-! ## The chosen files -/

/-- If a file among the first `n` comes to have a higher priority, the first `n` are the same files,
with this one changed. -/
theorem take_prioritize_raised {f' : Source} (hd : (before ++ f :: after).Nodup)
    (hf : f ∈ (prioritize (before ++ f :: after)).take n) (h : f.priority ≤ f'.priority) :
    ((prioritize (before ++ f' :: after)).take n).Perm
      (((prioritize (before ++ f :: after)).take n).replace f f') := by
  obtain ⟨front, back, he, hrest, hlen⟩ := exists_prioritize_eq before after f
  obtain ⟨front', back', he', hrest', hlen'⟩ := exists_prioritize_eq before after f'
  have hle : front'.length ≤ front.length := by
    rw [hlen, hlen']
    exact length_ahead_le h before after
  have hout : f ∉ front := by
    have hnodup := (prioritize_perm (before ++ f :: after)).nodup_iff.2 hd
    rw [he] at hnodup
    exact fun hmem => (List.nodup_append.1 hnodup).2.2 f hmem f List.mem_cons_self rfl
  rw [he] at hf ⊢
  rw [he']
  have hlt : front.length < n := by
    by_contra hge
    rw [List.take_append_of_le_length (Nat.le_of_not_lt hge)] at hf
    exact hout (List.mem_of_mem_take hf)
  obtain ⟨m, rfl⟩ : ∃ m, n = front.length + (m + 1) :=
    ⟨n - front.length - 1, by omega⟩
  obtain ⟨m', hm'⟩ : ∃ m', front.length + (m + 1) = front'.length + (m' + 1) :=
    ⟨front.length + m - front'.length, by omega⟩
  have hsame : front ++ back.take m = front' ++ back'.take m' := by
    have htake := congrArg (List.take (front.length + m)) (hrest.symm.trans hrest')
    have hm : front.length + m = front'.length + m' := by omega
    rw [List.take_length_add_append, hm, List.take_length_add_append] at htake
    exact htake
  rw [List.take_length_add_append, List.take_succ_cons, List.replace_append_right hout,
    List.replace_cons_self, hm', List.take_length_add_append, List.take_succ_cons]
  have hperm := (List.perm_middle (a := f')).trans (.of_eq (congrArg (f' :: ·) hsame.symm))
  exact hperm.trans List.perm_middle.symm

/-- The first `n` files in the order of priority are the best: they score higher than all others, or
as high and were met earlier. A chosen file that shrinks stays chosen, beside the same files. -/
theorem prioritize_caps (hd : files.Nodup) (n : Nat) :
    (prioritize files).Perm files ∧
      (∀ f ∈ (prioritize files).take n, ∀ g ∈ files, g ∉ (prioritize files).take n →
        score g.relative g.size < score f.relative f.size ∨
          score f.relative f.size = score g.relative g.size ∧ files.idxOf f < files.idxOf g) ∧
      ∀ f ∈ (prioritize files).take n, ∀ size < f.size,
        { f with size } ∈ (prioritize (files.replace f { f with size })).take n ∧
          ((prioritize (files.replace f { f with size })).take n).Perm
            (((prioritize files).take n).replace f { f with size }) := by
  have hperm := prioritize_perm files
  refine ⟨hperm, fun f hf g hg hout => ?_, fun f hf size hlt => ?_⟩
  · have hordered := prioritize_ordered files
    have hdrop : g ∈ (prioritize files).drop n := by
      have hmem := hperm.mem_iff.2 hg
      rw [← List.take_append_drop n (prioritize files)] at hmem
      exact (List.mem_append.1 hmem).resolve_left hout
    rw [← List.take_append_drop n (prioritize files)] at hordered
    rcases (List.pairwise_append.1 hordered).2.2 f hf g hdrop with hlt | ⟨heq, hsub⟩
    · exact .inl hlt
    · exact .inr ⟨heq, idxOf_lt_of_sublist hd hsub⟩
  · obtain ⟨before, after, rfl, hbefore⟩ :=
      List.eq_append_cons_of_mem (hperm.mem_iff.1 (List.mem_of_mem_take hf))
    have hraised : f.priority ≤ Source.priority { f with size } :=
      score_antitone f.relative (Int.le_of_lt hlt)
    rw [List.replace_append_right hbefore, List.replace_cons_self]
    have hchosen := take_prioritize_raised hd hf hraised
    refine ⟨hchosen.mem_iff.2 ?_, hchosen⟩
    obtain ⟨front, back, e, hfront⟩ := List.eq_append_cons_of_mem hf
    rw [e, List.replace_append_right hfront, List.replace_cons_self]
    exact List.mem_append_right _ List.mem_cons_self

def sampleScript : Source := Plan.sampleFile "b.js" 30000 (some .javascript) 1

/-- A style sheet, two large scripts of one score and an entry point. -/
def sampleRanked : List Source := [
  Plan.sampleFile "a.css" 3 (some .stylesheet) 0, sampleScript,
  Plan.sampleFile "c.js" 30000 (some .javascript) 2,
  Plan.sampleFile "index.js" 60000 (some .javascript) 3]

/-- Of the two large scripts the first is chosen, and it is still when it shrinks. -/
theorem prioritize_caps_ranked : sampleRanked.Nodup ∧
    ((prioritize sampleRanked).take 3).map (·.relative) = ["index.js", "a.css", "b.js"] ∧
    sampleScript ∈ (prioritize sampleRanked).take 3 ∧ 0 < sampleScript.size ∧
    { sampleScript with size := 0 } ∈
      (prioritize (sampleRanked.replace sampleScript { sampleScript with size := 0 })).take 3 := by
  have hd : sampleRanked.Nodup := by decide
  have hscores : score "a.css" 3 = 11 ∧ score "b.js" 30000 = 10 ∧ score "c.js" 30000 = 10 ∧
      score "index.js" 60000 = 17 := by decide +kernel
  have hchosen : (prioritize sampleRanked).take 3 =
      [Plan.sampleFile "index.js" 60000 (some .javascript) 3,
        Plan.sampleFile "a.css" 3 (some .stylesheet) 0, sampleScript] := by
    simp [prioritize, sampleRanked, sampleScript, Plan.sampleFile, List.mergeSort,
      List.MergeSort.Internal.splitInTwo, hscores]
  have hmem : sampleScript ∈ (prioritize sampleRanked).take 3 := by
    rw [hchosen]
    decide
  obtain ⟨-, -, hshrunk⟩ := prioritize_caps hd 3
  exact ⟨hd, by rw [hchosen]; decide, hmem, by decide, (hshrunk _ hmem 0 (by decide)).1⟩

end PerfReview
