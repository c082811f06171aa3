import Mathlib.Data.List.Chain
import PerfReview.Proofs.Plan.Packing

/-!
# Divisions into runs

`Division b files division` cuts `files` into consecutive runs that each keep to the bounds of a
batch. Packing closes a run only if the next file has no room in it, so while it goes through the
files its run under construction never began before that of another division after as many closed
runs, and no division of the files has fewer runs than there are batches.
-/

namespace PerfReview

/-! ## Sizes -/

theorem totalSize_nonneg {files : List Source} (h : ∀ f ∈ files, 0 ≤ f.size) :
    0 ≤ totalSize files := by
  induction files with
  | nil => exact Int.le_refl 0
  | cons f files ih =>
    obtain ⟨hf, hfiles⟩ := List.forall_mem_cons.1 h
    have hrest := ih hfiles
    show 0 ≤ f.size + totalSize files
    omega

theorem Bounds.Hold.of_infix {b : Bounds} {files : List Source} (before after : List Source)
    (h : b.Hold (before ++ files ++ after)) (hsize : ∀ f ∈ before ++ files ++ after, 0 ≤ f.size) :
    b.Hold files := by
  obtain ⟨hcount, htotal⟩ := h
  have hbefore := totalSize_nonneg fun f hf =>
    hsize f (List.mem_append_left after (List.mem_append_left files hf))
  have hafter := totalSize_nonneg fun f hf => hsize f (List.mem_append_right (before ++ files) hf)
  rw [List.length_append, List.length_append] at hcount
  rw [totalSize_append, totalSize_append] at htotal
  exact ⟨by omega, by omega⟩

namespace Plan

variable {b : Bounds} {g : Group} {f : Source} {files current taken more : List Source}
  {division rest : List (List Source)}

theorem isFull_iff : isFull b current f = true ↔ ¬ b.Hold (current ++ [f]) := by
  constructor
  · intro h hhold
    obtain ⟨hcount, htotal⟩ := hhold
    rw [List.length_append, List.length_singleton] at hcount
    rw [totalSize_append, totalSize_singleton] at htotal
    simp only [isFull, Bool.or_eq_true, decide_eq_true_eq] at h
    omega
  · intro h
    by_contra hfull
    exact h (hold_concat (by simpa using hfull))

/-! ## Divisions -/

/-- The files are cut into consecutive runs, each within the bounds of a batch. -/
structure Division (b : Bounds) (files : List Source) (division : List (List Source)) : Prop where
  flatten : division.flatten = files
  hold : ∀ run ∈ division, b.Hold run

/-- A division of `files` that has begun: its run under construction, `taken`, ends with `current`
and goes on with `more`; its later runs are `rest`. -/
structure Underway (b : Bounds) (current files taken more : List Source)
    (rest : List (List Source)) : Prop where
  sizes : ∀ f ∈ taken, 0 ≤ f.size
  suffix : current <:+ taken
  hold : b.Hold (taken ++ more)
  flatten : more ++ rest.flatten = files
  holdRest : ∀ run ∈ rest, b.Hold run

/-- Once the first file is in a run of a division, that division goes on with fewer runs. -/
theorem Division.exists_underway (hf : 0 ≤ f.size) (h : Division b (f :: files) division) :
    ∃ more rest, Underway b [f] files [f] more rest ∧ rest.length < division.length := by
  obtain ⟨hflat, hhold⟩ := h
  induction division with
  | nil => cases hflat
  | cons run division ih =>
    obtain ⟨hrun, hrest⟩ := List.forall_mem_cons.1 hhold
    rw [List.flatten_cons] at hflat
    cases run with
    | nil =>
      obtain ⟨more, rest, hgoes, hlen⟩ := ih hflat hrest
      exact ⟨more, rest, hgoes, Nat.lt_succ_of_lt hlen⟩
    | cons f' more =>
      obtain ⟨rfl, hfiles⟩ := List.cons.inj hflat
      refine ⟨more, division, ?_, Nat.lt_succ_self _⟩
      exact ⟨List.forall_mem_singleton.2 hf, List.suffix_rfl, hrun, hfiles, hrest⟩

theorem Underway.toDivision (hsize : ∀ f ∈ files, 0 ≤ f.size)
    (h : Underway b current files taken more rest) : Division b files (more :: rest) := by
  refine ⟨h.flatten, List.forall_mem_cons.2 ⟨?_, h.holdRest⟩⟩
  refine Bounds.Hold.of_infix taken [] ?_ ?_
  · rw [List.append_nil]
    exact h.hold
  · rw [List.append_nil]
    refine List.forall_mem_append.2 ⟨h.sizes, fun k hk => hsize k ?_⟩
    rw [← h.flatten]
    exact List.mem_append_left _ hk

/-- A run that ends with the run of packing has room for a file only if that has. -/
theorem Underway.isFull_eq_false (hsize : ∀ k ∈ f :: files, 0 ≤ k.size)
    (h : Underway b current (f :: files) taken (f :: more) rest) : isFull b current f = false := by
  rw [← Bool.not_eq_true, isFull_iff, not_not]
  obtain ⟨before, rfl⟩ := h.suffix
  refine Bounds.Hold.of_infix before more ?_ ?_
  · simpa using h.hold
  · intro k hk
    have hk : k ∈ before ++ current ∨ k ∈ f :: more := by simpa [or_assoc] using hk
    rcases hk with hk | hk
    · exact h.sizes k hk
    · refine hsize k ?_
      rw [← h.flatten]
      exact List.mem_append_left _ hk

theorem Underway.concat (hf : 0 ≤ f.size)
    (h : Underway b current (f :: files) taken (f :: more) rest) :
    Underway b (current ++ [f]) files (taken ++ [f]) more rest := by
  obtain ⟨hsizes, ⟨before, rfl⟩, hhold, hflat, hrest⟩ := h
  refine ⟨?_, ⟨before, (List.append_assoc _ _ _).symm⟩, ?_, (List.cons.inj hflat).2, hrest⟩
  · exact List.forall_mem_append.2 ⟨hsizes, List.forall_mem_singleton.2 hf⟩
  · simpa using hhold

/-! ## Packing stays ahead -/

/-- Whatever packing has under construction, it needs at most one run more than a division of the
files ahead. -/
def Ahead (b : Bounds) (files : List Source) : Prop := ∀ current division,
  Division b files division → (runs b current files).length ≤ division.length + 1

/-- Packing needs no run more than a division whose run under construction ends with that of
packing. -/
def Level (b : Bounds) (files : List Source) : Prop := ∀ current taken more rest,
  Underway b current files taken more rest → (runs b current files).length ≤ rest.length + 1

theorem Ahead.cons (hsize : ∀ k ∈ f :: files, 0 ≤ k.size) (ha : Ahead b files)
    (hl : Level b files) : Ahead b (f :: files) := by
  intro current division hdivision
  obtain ⟨hf, hfiles⟩ := List.forall_mem_cons.1 hsize
  obtain ⟨more, rest, hgoes, hlen⟩ := hdivision.exists_underway hf
  unfold runs
  split
  · -- packing begins a run with the file, and the division did no later
    have hle := hl [f] [f] more rest hgoes
    rw [List.length_cons]
    omega
  · have hle := ha (current ++ [f]) (more :: rest) (hgoes.toDivision hfiles)
    rw [List.length_cons] at hle
    omega

theorem Level.cons (hsize : ∀ k ∈ f :: files, 0 ≤ k.size) (ha : Ahead b (f :: files))
    (hl : Level b files) : Level b (f :: files) := by
  intro current taken more rest hgoes
  cases more with
  | nil =>
    -- the division closes its run, and packing is ahead
    exact ha current rest ⟨hgoes.flatten, hgoes.holdRest⟩
  | cons f' more =>
    obtain ⟨rfl, -⟩ := List.cons.inj hgoes.flatten
    have hroom := hgoes.isFull_eq_false hsize
    unfold runs
    rw [hroom, Bool.and_false, if_neg Bool.false_ne_true]
    exact hl (current ++ [f']) (taken ++ [f']) more rest
      (hgoes.concat (List.forall_mem_cons.1 hsize).1)

theorem ahead_and_level (hsize : ∀ f ∈ files, 0 ≤ f.size) : Ahead b files ∧ Level b files := by
  induction files with
  | nil =>
    have hle : ∀ current, (runs b current []).length ≤ 1 := by
      intro current
      unfold runs
      split
      · exact Nat.zero_le 1
      · exact Nat.le_refl 1
    refine ⟨fun current division _ => ?_, fun current taken more rest _ => ?_⟩
    · have := hle current
      omega
    · have := hle current
      omega
  | cons f files ih =>
    obtain ⟨ha, hl⟩ := ih (List.forall_mem_cons.1 hsize).2
    have ha' := ha.cons hsize hl
    exact ⟨ha', hl.cons hsize ha'⟩

/-- No division has fewer runs than packing makes. -/
theorem Division.length_runs_le (hsize : ∀ f ∈ files, 0 ≤ f.size)
    (h : Division b files division) : (runs b [] files).length ≤ division.length := by
  cases files with
  | nil => exact Nat.zero_le _
  | cons f files =>
    obtain ⟨hf, hfiles⟩ := List.forall_mem_cons.1 hsize
    obtain ⟨more, rest, hgoes, hlen⟩ := h.exists_underway hf
    have hle := (ahead_and_level hfiles).2 [f] [f] more rest hgoes
    show (runs b [f] files).length ≤ division.length
    omega

/-! ## Runs are filled up -/

theorem exists_runs_eq (h : current ≠ []) (b : Bounds) (files : List Source) :
    ∃ more rest, runs b current files = (current ++ more) :: rest := by
  induction files generalizing current with
  | nil =>
    refine ⟨[], [], ?_⟩
    unfold runs
    rw [if_neg (by simpa using h), List.append_nil]
  | cons f files ih =>
    unfold runs
    split
    · exact ⟨[], runs b [f] files, by rw [List.append_nil]⟩
    · obtain ⟨more, rest, e⟩ :=
        ih (List.append_ne_nil_of_right_ne_nil current (List.cons_ne_nil f []))
      exact ⟨f :: more, rest, by rw [e, List.append_assoc]; rfl⟩

theorem isChain_runs (b : Bounds) (current files : List Source) :
    (runs b current files).IsChain fun run next => ∃ f ∈ next.head?, ¬ b.Hold (run ++ [f]) := by
  induction files generalizing current with
  | nil =>
    unfold runs
    split
    · exact .nil
    · exact .singleton current
  | cons f files ih =>
    unfold runs
    split
    · rename_i hfull
      rw [Bool.and_eq_true, isFull_iff] at hfull
      obtain ⟨more, rest, e⟩ := exists_runs_eq (List.cons_ne_nil f []) b files
      have hchain := ih [f]
      rw [e] at hchain ⊢
      exact .cons_cons ⟨f, rfl, hfull.2⟩ hchain
    · exact ih (current ++ [f])

/-! ## Batches -/

/-- The batches of a group divide the files that fit, in the order of their sizes, into as few runs
as possible, and no batch but the last has room for the first file of the next one. -/
theorem pack_fewest (hb : b.Usable) (g : Group) {seq : List Source}
    (hsize : ∀ f ∈ files, 0 ≤ f.size)
    (hseq : Ascending
      (files.filter fun f => f.size ≤ b.maxFileSize ∧ f.size ≤ b.tokenBudget) seq) :
    Division b seq ((pack b g files).map (·.files)) ∧
      (∀ division, Division b seq division → (pack b g files).length ≤ division.length) ∧
      (pack b g files).IsChain fun batch next =>
        ∃ f ∈ next.files.head?, ¬ b.Hold (batch.files ++ [f]) := by
  have hfits : (files.filter fun f => f.size ≤ b.maxFileSize ∧ f.size ≤ b.tokenBudget) =
      files.filter (fits b) := by
    refine List.filter_congr fun f _ => ?_
    rw [fits, Bool.decide_and]
  rw [hfits] at hseq
  obtain rfl := hseq.unique ((ascending_bySize files).filter (fits b))
  have hruns : (pack b g files).map (·.files) = runs b [] ((bySize files).filter (fits b)) := by
    rw [pack, List.map_map]
    exact List.map_id _
  have hmem : ∀ f ∈ (bySize files).filter (fits b), 0 ≤ f.size := fun f hf =>
    hsize f ((ascending_bySize files).perm.mem_iff.1 (List.mem_of_mem_filter hf))
  have hempty : b.Hold [] := by
    obtain ⟨-, hcount, -, hbudget⟩ := hb
    exact ⟨Int.le_of_lt hcount, Int.le_of_lt hbudget⟩
  refine ⟨⟨?_, ?_⟩, fun division hdivision => ?_, ?_⟩
  · rw [hruns, flatten_runs, List.nil_append]
  · intro run hrun
    rw [hruns] at hrun
    exact (hold_of_mem_runs hb hempty (fun f hf => (List.mem_filter.1 hf).2) hrun).2
  · have hle := hdivision.length_runs_le hmem
    rwa [← hruns, List.length_map] at hle
  · have hchain := isChain_runs b [] ((bySize files).filter (fits b))
    rwa [← hruns, List.isChain_map] at hchain

def sampleBySize : List Source := [
  sampleFile "e.js" 0 (some .javascript) 4, sampleFile "d" 1 none 3,
  sampleFile "f.js" 1 (some .javascript) 5, sampleFile "b.css" 3 (some .stylesheet) 1,
  sampleFile "c.js" 5 (some .javascript) 2]

theorem pack_fewest_sample : (⟨5, 2, 6, 5⟩ : Bounds).Usable ∧
    (∀ f ∈ sampleFiles, 0 ≤ f.size) ∧
    Ascending (sampleFiles.filter fun f => f.size ≤ 6 ∧ f.size ≤ 5) sampleBySize ∧
    Division ⟨5, 2, 6, 5⟩ sampleBySize
      ((pack ⟨5, 2, 6, 5⟩ .javascript sampleFiles).map (·.files)) ∧
    (∀ division, Division ⟨5, 2, 6, 5⟩ sampleBySize division →
      (pack ⟨5, 2, 6, 5⟩ .javascript sampleFiles).length ≤ division.length) ∧
    (pack ⟨5, 2, 6, 5⟩ .javascript sampleFiles).IsChain fun batch next =>
      ∃ f ∈ next.files.head?, ¬ (⟨5, 2, 6, 5⟩ : Bounds).Hold (batch.files ++ [f]) := by
  have hsorted : bySize (sampleFiles.filter fun f => f.size ≤ 6 ∧ f.size ≤ 5) = sampleBySize := by
    simp [sampleFiles, sampleFile, sampleBySize, bySize, List.mergeSort,
      List.MergeSort.Internal.splitInTwo]
  have hseq := ascending_bySize (sampleFiles.filter fun f => f.size ≤ 6 ∧ f.size ≤ 5)
  rw [hsorted] at hseq
  have hsize : ∀ f ∈ sampleFiles, 0 ≤ f.size := by decide
  exact ⟨by decide, hsize, hseq, pack_fewest (by decide) .javascript hsize hseq⟩

end Plan

end PerfReview
