import PerfReview.Proofs.Assoc
import PerfReview.Proofs.Response.Classification

/-!
# The files that answers are about

A citation means a file of its index or none, so every issue that an answer gives is about a file of
the batch that was sent.
-/

namespace PerfReview

namespace Index

variable {files : List Source} {root : Option String} {f : Source}

theorem mem_of_get? {path : String}
    (h : Assoc.get? (ofFiles files root).files path = some f) : f ∈ files := by
  obtain ⟨f', hf, e⟩ := List.mem_map.1 (Assoc.mem_ofPairs (Assoc.mem_of_get?_eq_some h))
  cases e
  exact hf

theorem mem_of_resolve {citation : String}
    (h : (ofFiles files root).resolve citation = some f) : f ∈ files := by
  unfold resolve find? at h
  split at h
  · cases h
  · split at h
    · rename_i hget
      cases h
      exact mem_of_get? hget
    · split at h
      · obtain ⟨rest, -, h⟩ := Option.bind_eq_some_iff.1 h
        exact mem_of_get? h
      · cases h

end Index

namespace Response

theorem Record.file_of_verdict {ix : Index} {r : Record} {first last : Nat} {i : Issue}
    (h : r.verdict ix first last = .issue i) :
    ∃ f, ix.resolve (String.ofList r.header.path) = some f ∧ i.file = f.relative := by
  unfold Record.verdict at h
  dsimp only at h
  split at h
  · cases h
  · split at h
    · cases h
    · rename_i f hf
      split at h
      · cases h
        exact ⟨f, hf, rfl⟩
      · cases h

theorem exists_verdict {ix : Index} {rs : List Record} {v : Verdict}
    (h : v ∈ (ofRecords ix rs).verdicts) : ∃ r ∈ rs, ∃ first last, v = r.verdict ix first last := by
  induction rs with
  | nil => cases h
  | cons r rs ih =>
    rw [ofRecords] at h
    cases hj : r.judge ix with
    | error f =>
      rw [hj] at h
      cases h
    | ok v' =>
      rw [hj] at h
      rcases List.mem_cons.1 h with rfl | h
      · obtain ⟨first, last, -, -, e⟩ := Record.judge_eq_ok_iff.1 hj
        exact ⟨r, List.mem_cons_self, first, last, e⟩
      · obtain ⟨r', hr', h⟩ := ih h
        exact ⟨r', List.mem_cons_of_mem _ hr', h⟩

/-- Every issue of an answer is about a file that was sent. -/
theorem file_mem_of_issue {files : List Source} {root : Option String} {text : String} {i : Issue}
    (h : i ∈ (read (Index.ofFiles files root) text).issues) : i.file ∈ files.map (·.relative) := by
  obtain ⟨v, hv, hi⟩ := List.mem_filterMap.1 h
  cases v with
  | rejected r => cases hi
  | issue i' =>
    cases hi
    obtain ⟨r, -, first, last, e⟩ := exists_verdict hv
    obtain ⟨f, hf, hfile⟩ := Record.file_of_verdict e.symm
    exact List.mem_map.2 ⟨f, Index.mem_of_resolve hf, hfile.symm⟩

end Response

end PerfReview
