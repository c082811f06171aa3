import Mathlib.Order.Bounds.Basic
import Mathlib.Order.WellFounded
import PerfReview.Proofs.Plan.Divisions

/-!
# Distributions over batches

`Distribution b files parts` spreads `files` over parts that each keep to the bounds of a batch, in
any order. A run of packing is closed because it is full or because it and the next run exceed the
budget together. With `m` parts there are fewer than `m` full runs, by the number of files, and fewer
than `2 * m` runs of the other kind, by the size of the files, and one run is left open at the end.
-/

namespace PerfReview

/-! ## Sizes -/

theorem totalSize_perm {xs ys : List Source} (h : xs.Perm ys) : totalSize xs = totalSize ys := by
  induction h with
  | nil => rfl
  | cons f _ ih =>
    show f.size + totalSize _ = f.size + totalSize _
    rw [ih]
  | swap f g xs =>
    show g.size + (f.size + totalSize xs) = f.size + (g.size + totalSize xs)
    omega
  | trans _ _ ih ih' => exact ih.trans ih'

namespace Plan

variable {b : Bounds} {files run : List Source} {parts rest : List (List Source)}

/-- The files lie in parts, each within the bounds of a batch. -/
structure Distribution (b : Bounds) (files : List Source) (parts : List (List Source)) : Prop where
  perm : parts.flatten.Perm files
  hold : ∀ part ∈ parts, b.Hold part

/-- The files can be spread over so many batches and no fewer. -/
def Fewest (b : Bounds) (files : List Source) (m : Nat) : Prop :=
  IsLeast {n | ∃ parts, Distribution b files parts ∧ parts.length = n} m

theorem Distribution.of_perm {files' : List Source} (h : Distribution b files parts)
    (hp : files.Perm files') : Distribution b files' parts :=
  ⟨h.perm.trans hp, h.hold⟩

/-! ## Bounds on the number of parts -/

theorem flatten_le (h : ∀ part ∈ parts, b.Hold part) :
    (parts.flatten.length : Int) ≤ parts.length * b.batchSize ∧
      totalSize parts.flatten ≤ parts.length * b.tokenBudget := by
  induction parts with
  | nil => simp [totalSize]
  | cons part parts ih =>
    obtain ⟨⟨hcount, htotal⟩, hparts⟩ := List.forall_mem_cons.1 h
    obtain ⟨hcounts, htotals⟩ := ih hparts
    rw [List.flatten_cons, List.length_append, totalSize_append, List.length_cons]
    push_cast
    rw [Int.add_mul, Int.add_mul]
    omega

theorem Distribution.le (h : Distribution b files parts) :
    (files.length : Int) ≤ parts.length * b.batchSize ∧
      totalSize files ≤ parts.length * b.tokenBudget := by
  have hle := flatten_le h.hold
  rwa [h.perm.length_eq, totalSize_perm h.perm] at hle

/-! ## Why runs are closed -/

/-- The run is full, or it is too much together with the next one. -/
def Closed (b : Bounds) (run next : List Source) : Prop :=
  b.batchSize ≤ run.length ∨ b.tokenBudget < totalSize run + totalSize next

theorem closed_of_not_hold {next : List Source} {f : Source} (hf : f ∈ next.head?)
    (hsize : ∀ k ∈ next, 0 ≤ k.size) (h : ¬ b.Hold (run ++ [f])) : Closed b run next := by
  obtain ⟨more, rfl⟩ : ∃ more, next = f :: more := by
    cases next with
    | nil => cases hf
    | cons k more =>
      cases hf
      exact ⟨more, rfl⟩
  have hmore := totalSize_nonneg (List.forall_mem_cons.1 hsize).2
  have hnext : totalSize (f :: more) = f.size + totalSize more := rfl
  unfold Closed Bounds.Hold at *
  rw [List.length_append, List.length_singleton, totalSize_append, totalSize_singleton] at h
  rw [hnext]
  omega

/-- Among the closed runs, those that are full take up the files and the others the budget. The
budget is counted twice, each run being one of two pairs, but the first run is in one pair only. -/
theorem exists_closed (hne : ∀ r ∈ run :: rest, r ≠ [])
    (hsize : ∀ f ∈ (run :: rest).flatten, 0 ≤ f.size)
    (h : (run :: rest).IsChain (Closed b)) :
    ∃ full heavy : Nat, (run :: rest).length = full + heavy + 1 ∧
      full * b.batchSize + 1 ≤ (run :: rest).flatten.length ∧
      heavy * (b.tokenBudget + 1) + totalSize run ≤ 2 * totalSize (run :: rest).flatten := by
  have hrun : 0 ≤ totalSize run := totalSize_nonneg fun f hf =>
    hsize f (List.mem_append_left _ hf)
  induction rest generalizing run with
  | nil =>
    have hlen := List.length_pos_iff.2 (hne run List.mem_cons_self)
    refine ⟨0, 0, rfl, ?_, ?_⟩
    · simp only [List.flatten_cons, List.flatten_nil, List.append_nil]
      omega
    · simp only [List.flatten_cons, List.flatten_nil, List.append_nil]
      omega
  | cons next rest ih =>
    obtain ⟨hclosed, hchain⟩ := List.isChain_cons_cons.1 h
    have hrest : ∀ f ∈ (next :: rest).flatten, 0 ≤ f.size := fun f hf =>
      hsize f (List.mem_append_right _ hf)
    have hnext : 0 ≤ totalSize next := totalSize_nonneg fun f hf =>
      hrest f (List.mem_append_left _ hf)
    obtain ⟨full, heavy, hlen, hfull, hheavy⟩ :=
      ih (List.forall_mem_cons.1 hne).2 hrest hchain hnext
    have hcount : (run :: next :: rest).flatten.length =
        run.length + (next :: rest).flatten.length := List.length_append
    have htotal : totalSize (run :: next :: rest).flatten =
        totalSize run + totalSize (next :: rest).flatten := totalSize_append _ _
    rw [List.length_cons, hcount, htotal, hlen]
    rcases hclosed with hclosed | hclosed
    · refine ⟨full + 1, heavy, by omega, ?_, by omega⟩
      push_cast
      rw [Int.add_mul]
      omega
    · refine ⟨full, heavy + 1, by omega, by omega, ?_⟩
      push_cast
      rw [Int.add_mul]
      omega

/-- Closed runs of files that lie in some parts are fewer than three times these parts. -/
theorem length_lt_of_closed (hb : b.Usable) (hne : ∀ r ∈ run :: rest, r ≠ [])
    (hsize : ∀ f ∈ (run :: rest).flatten, 0 ≤ f.size) (h : (run :: rest).IsChain (Closed b))
    (hparts : Distribution b (run :: rest).flatten parts) :
    (run :: rest).length < 3 * parts.length := by
  obtain ⟨full, heavy, hlen, hfull, hheavy⟩ := exists_closed hne hsize h
  obtain ⟨hcount, htotal⟩ := hparts.le
  obtain ⟨-, hbatch, -, hbudget⟩ := hb
  have hrun : 0 ≤ totalSize run := totalSize_nonneg fun f hf =>
    hsize f (List.mem_append_left _ hf)
  have hfewer : full < parts.length := by
    by_contra hge
    have hmul : (parts.length : Int) * b.batchSize ≤ full * b.batchSize :=
      Int.mul_le_mul_of_nonneg_right (by omega) (Int.le_of_lt hbatch)
    omega
  have hfewer' : heavy < 2 * parts.length := by
    by_contra hge
    have hmul : ((2 * parts.length : Nat) : Int) * (b.tokenBudget + 1) ≤
        heavy * (b.tokenBudget + 1) :=
      Int.mul_le_mul_of_nonneg_right (by omega) (by omega)
    push_cast at hmul
    rw [Int.mul_add, Int.mul_assoc] at hmul
    omega
  omega

/-! ## Batches -/

theorem isChain_closed_runs (hsize : ∀ f ∈ files, 0 ≤ f.size) :
    (runs b [] files).IsChain (Closed b) := by
  have hmem : ∀ next ∈ runs b [] files, ∀ f ∈ next, 0 ≤ f.size := by
    intro next hnext f hf
    refine hsize f ?_
    have hflat := List.mem_flatten_of_mem hnext hf
    rwa [flatten_runs, List.nil_append] at hflat
  refine (isChain_runs b [] files).imp_of_mem_imp fun run next _ hnext h => ?_
  obtain ⟨f, hf, hhold⟩ := h
  exact closed_of_not_hold hf (hmem next hnext) hhold

theorem distribution_runs (hb : b.Usable) (hfits : ∀ f ∈ files, fits b f = true) :
    Distribution b files (runs b [] files) := by
  constructor
  case perm => rw [flatten_runs, List.nil_append]
  case hold => exact fun run hrun => (hold_of_mem_runs hb (hold_nil hb) hfits hrun).2

theorem exists_fewest (h : Distribution b files parts) : ∃ m, Fewest b files m := by
  obtain ⟨m, hm, hleast⟩ := wellFounded_lt.has_min
    {n | ∃ parts, Distribution b files parts ∧ parts.length = n} ⟨_, parts, h, rfl⟩
  exact ⟨m, hm, fun n hn => Nat.le_of_not_lt (hleast n hn)⟩

/-- Files that are not too large take fewer than three times the batches that they need. -/
theorem Distribution.length_runs_lt (hb : b.Usable) (hfits : ∀ f ∈ files, fits b f = true)
    (hsize : ∀ f ∈ files, 0 ≤ f.size) (hne : files ≠ []) (h : Distribution b files parts) :
    (runs b [] files).length < 3 * parts.length := by
  have hflat : (runs b [] files).flatten = files := flatten_runs b [] files
  have hruns : ∀ r ∈ runs b [] files, r ≠ [] := fun r hr =>
    (hold_of_mem_runs hb (hold_nil hb) hfits hr).1
  have hchain := isChain_closed_runs (b := b) hsize
  cases e : runs b [] files with
  | nil => exact absurd (hflat.symm.trans (congrArg List.flatten e)) hne
  | cons run rest =>
    rw [e] at hflat hruns hchain
    rw [← hflat] at hsize h
    exact length_lt_of_closed hb hruns hsize hchain h

/-- If the files that fit can be spread over `m` batches at best, in whatever order, then packing
makes `3 * m - 1` batches of them at most. -/
theorem pack_near_fewest (hb : b.Usable) (g : Group) (hsize : ∀ f ∈ files, 0 ≤ f.size)
    (hne : ∃ f ∈ files, f.size ≤ b.maxFileSize ∧ f.size ≤ b.tokenBudget) :
    ∃ m, Fewest b (files.filter fun f => f.size ≤ b.maxFileSize ∧ f.size ≤ b.tokenBudget) m ∧
      (pack b g files).length ≤ 3 * m - 1 := by
  rw [filter_fits]
  have hperm := (ascending_bySize files).perm.filter (fits b)
  have hfits : ∀ f ∈ (bySize files).filter (fits b), fits b f = true := fun f hf =>
    (List.mem_filter.1 hf).2
  have hsizes : ∀ f ∈ (bySize files).filter (fits b), 0 ≤ f.size := fun f hf =>
    hsize f (List.mem_of_mem_filter (hperm.mem_iff.1 hf))
  have hpacked : (bySize files).filter (fits b) ≠ [] := by
    obtain ⟨f, hf, hfit⟩ := hne
    exact List.ne_nil_of_mem (hperm.mem_iff.2 (List.mem_filter.2 ⟨hf, fits_iff.2 hfit⟩))
  obtain ⟨m, hm⟩ := exists_fewest ((distribution_runs hb hfits).of_perm hperm)
  obtain ⟨parts, hparts, rfl⟩ := hm.1
  have hlt := (hparts.of_perm hperm.symm).length_runs_lt hb hfits hsizes hpacked
  refine ⟨parts.length, hm, ?_⟩
  rw [pack, List.length_map]
  omega

/-- Two small files and two that fill a batch each, but for the room of one small file. -/
def sampleHalves : List Source := [
  sampleFile "a.js" 9 (some .javascript) 0, sampleFile "b.js" 1 (some .javascript) 1,
  sampleFile "c.js" 9 (some .javascript) 2, sampleFile "d.js" 1 (some .javascript) 3]

/-- Packing puts the small files together and takes three batches where two would do. -/
theorem pack_near_fewest_halves : (⟨9, 2, 10, 10⟩ : Bounds).Usable ∧
    (∀ f ∈ sampleHalves, 0 ≤ f.size) ∧ (∃ f ∈ sampleHalves, f.size ≤ 10 ∧ f.size ≤ 10) ∧
    (pack ⟨9, 2, 10, 10⟩ .javascript sampleHalves).map (·.paths) =
      [["b.js", "d.js"], ["a.js"], ["c.js"]] ∧
    ∃ m, Fewest ⟨9, 2, 10, 10⟩ (sampleHalves.filter fun f => f.size ≤ 10 ∧ f.size ≤ 10) m ∧
      m ≤ 2 ∧ (pack ⟨9, 2, 10, 10⟩ .javascript sampleHalves).length ≤ 3 * m - 1 := by
  have hsize : ∀ f ∈ sampleHalves, 0 ≤ f.size := by decide
  have hne : ∃ f ∈ sampleHalves, f.size ≤ 10 ∧ f.size ≤ 10 := by decide
  have hpaths : (pack ⟨9, 2, 10, 10⟩ .javascript sampleHalves).map (·.paths) =
      [["b.js", "d.js"], ["a.js"], ["c.js"]] := by
    simp [sampleHalves, sampleFile, pack, bySize, List.mergeSort,
      List.MergeSort.Internal.splitInTwo, runs, isFull, fits, totalSize, Batch.paths]
  obtain ⟨m, hm, hle⟩ :=
    pack_near_fewest (b := ⟨9, 2, 10, 10⟩) (by decide) .javascript hsize hne
  have htwo : m ≤ 2 := by
    refine hm.2 ⟨[sampleHalves.take 2, sampleHalves.drop 2], ⟨?_, ?_⟩, rfl⟩
    · decide
    · decide
  exact ⟨by decide, hsize, hne, hpaths, m, hm, htwo, hle⟩

end Plan

end PerfReview
