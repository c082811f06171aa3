import PerfReview.Proofs.Scan.Candidates

/-!
# The files of a scan

A scan keeps the files that match an include pattern, can be read and are small enough, numbered in
the order in which it meets them. With the files that are too large they are all that match and can
be read.
-/

namespace PerfReview

/-- The file of a candidate, at its place in the order of discovery. -/
def Candidate.source (c : Candidate) (bytes : List UInt8) (index : Nat) : Source where
  path := c.path
  relative := c.relative
  size := bytes.length
  extension := Text.small (Path.extension (Path.name c.path))
  group := Group.classify c.relative (Text.small (Path.extension (Path.name c.path)))
  index := index
  reading := .ofBytes bytes

namespace Scan

/-- The file at the end of some way is not ignored, matches an include pattern and can be read. -/
structure Eligible (d : Disk) (sel : Selection) (root : String) (entries : List (String × Node))
    (c : Candidate) (bytes : List UInt8) : Prop where
  leads : ∃ names, Leads d sel.ignores root "" (.folder entries) names c
  included : matchesAny sel.includes c.relative = true
  content : c.content = .ok bytes

/-- The files are those that are small enough, in the order of discovery. -/
structure Lists (d : Disk) (sel : Selection) (root : String) (entries : List (String × Node))
    (files : List Source) : Prop where
  sound : ∀ f ∈ files, ∃ c bytes, Eligible d sel root entries c bytes ∧
    bytes.length ≤ sel.maxFileSize ∧ f = c.source bytes f.index
  complete : ∀ c bytes, Eligible d sel root entries c bytes → bytes.length ≤ sel.maxFileSize →
    ∃ f ∈ files, f = c.source bytes f.index
  indexed : files.map (·.index) = List.range files.length
  ordered : files.Pairwise fun f g => ∃ c c', c.relative = f.relative ∧ c'.relative = g.relative ∧
    Follows d sel.ignores root "" (.folder entries) c c'

/-! ## Settling candidates -/

/-- A candidate that can be read and is small enough, with its bytes. -/
def sized? (maxFileSize : Int) (c : Candidate) : Option (Candidate × List UInt8) :=
  match c.content with
  | .error _ => none
  | .ok bytes => if maxFileSize < bytes.length then none else some (c, bytes)

variable {maxFileSize : Int} {cs : List Candidate}

theorem sized?_eq_some_iff {c : Candidate} {x : Candidate × List UInt8} :
    sized? maxFileSize c = some x ↔
      x.1 = c ∧ c.content = .ok x.2 ∧ x.2.length ≤ maxFileSize := by
  obtain ⟨c', bytes'⟩ := x
  unfold sized?
  cases h : c.content with
  | error f => simp
  | ok bytes =>
    dsimp only
    by_cases hlt : maxFileSize < bytes.length
    · rw [if_pos hlt]
      simp only [reduceCtorEq, Except.ok.injEq, false_iff]
      rintro ⟨-, rfl, hle⟩
      omega
    · rw [if_neg hlt]
      simp only [Option.some.injEq, Prod.mk.injEq, Except.ok.injEq]
      constructor
      · rintro ⟨rfl, rfl⟩
        exact ⟨rfl, rfl, by omega⟩
      · rintro ⟨rfl, rfl, -⟩
        exact ⟨rfl, rfl⟩

theorem kept_settle (maxFileSize : Int) (index : Nat) (cs : List Candidate) :
    (settle maxFileSize index cs).filterMap kept? =
      ((cs.filterMap (sized? maxFileSize)).zipIdx index).map fun x => x.1.1.source x.1.2 x.2 := by
  induction cs generalizing index with
  | nil => rfl
  | cons c cs ih =>
    rw [settle, List.filterMap_cons, sized?]
    cases h : c.content with
    | error f =>
      simp only [List.filterMap_cons, kept?]
      exact ih index
    | ok bytes =>
      dsimp only
      split
      · simp only [List.filterMap_cons, kept?]
        exact ih index
      · simp only [List.filterMap_cons, kept?, List.zipIdx_cons, List.map_cons, ih]
        rfl

/-- Every candidate that can be read is kept or too large. -/
theorem settle_perm (maxFileSize : Int) (index : Nat) (cs : List Candidate) :
    (((settle maxFileSize index cs).filterMap kept?).map (·.relative) ++
      (settle maxFileSize index cs).filterMap oversize?).Perm
        ((cs.filter (·.content.isOk)).map (·.relative)) := by
  induction cs generalizing index with
  | nil => exact .nil
  | cons c cs ih =>
    rw [settle]
    cases h : c.content with
    | error f =>
      have hbad : ¬ c.content.isOk = true := by
        rw [h]
        exact Bool.false_ne_true
      rw [List.filter_cons_of_neg (p := fun c : Candidate => c.content.isOk) hbad]
      exact ih index
    | ok bytes =>
      have hok : c.content.isOk = true := by
        rw [h]
        rfl
      rw [List.filter_cons_of_pos (p := fun c : Candidate => c.content.isOk) hok, List.map_cons]
      dsimp only
      split
      · simp only [List.filterMap_cons, kept?, oversize?]
        exact List.perm_middle.trans ((ih index).cons _)
      · simp only [List.filterMap_cons, kept?, oversize?, List.map_cons, List.cons_append]
        exact (ih (index + 1)).cons _

/-! ## Whole scans -/

theorem mem_kept {f : Source} (h : f ∈ (settle maxFileSize 0 cs).filterMap kept?) :
    ∃ c ∈ cs, ∃ bytes, c.content = .ok bytes ∧ bytes.length ≤ maxFileSize ∧
      f = c.source bytes f.index := by
  rw [kept_settle] at h
  obtain ⟨⟨x, i⟩, hx, rfl⟩ := List.mem_map.1 h
  obtain ⟨c, hc, hsized⟩ := List.mem_filterMap.1 (List.fst_mem_of_mem_zipIdx hx)
  obtain ⟨rfl, hcontent, hle⟩ := sized?_eq_some_iff.1 hsized
  exact ⟨x.1, hc, x.2, hcontent, hle, rfl⟩

theorem exists_kept {c : Candidate} {bytes : List UInt8} (hc : c ∈ cs)
    (hcontent : c.content = .ok bytes) (hle : bytes.length ≤ maxFileSize) :
    ∃ f ∈ (settle maxFileSize 0 cs).filterMap kept?, f = c.source bytes f.index := by
  have hsized : (c, bytes) ∈ cs.filterMap (sized? maxFileSize) :=
    List.mem_filterMap.2 ⟨c, hc, sized?_eq_some_iff.2 ⟨rfl, hcontent, hle⟩⟩
  rw [← List.zipIdx_map_fst 0 (cs.filterMap (sized? maxFileSize))] at hsized
  obtain ⟨⟨x, i⟩, hx, rfl⟩ := List.mem_map.1 hsized
  rw [kept_settle]
  exact ⟨_, List.mem_map.2 ⟨_, hx, rfl⟩, rfl⟩

theorem index_kept : ((settle maxFileSize 0 cs).filterMap kept?).map (·.index) =
    List.range ((settle maxFileSize 0 cs).filterMap kept?).length := by
  rw [kept_settle, List.map_map, List.length_map, List.length_zipIdx, List.range_eq_range',
    ← List.zipIdx_map_snd 0]
  rfl

theorem kept_pairwise {R : Candidate → Candidate → Prop} (h : cs.Pairwise R) :
    ((settle maxFileSize 0 cs).filterMap kept?).Pairwise fun f g =>
      ∃ c c', c.relative = f.relative ∧ c'.relative = g.relative ∧ R c c' := by
  have hsized : (cs.filterMap (sized? maxFileSize)).Pairwise fun x y => R x.1 y.1 := by
    refine List.pairwise_filterMap.2 (h.imp fun {c c'} hR x hx y hy => ?_)
    rw [(sized?_eq_some_iff.1 hx).1, (sized?_eq_some_iff.1 hy).1]
    exact hR
  rw [← List.zipIdx_map_fst 0 (cs.filterMap (sized? maxFileSize)), List.pairwise_map] at hsized
  rw [kept_settle, List.pairwise_map]
  exact hsized.imp fun hR => ⟨_, _, rfl, rfl, hR⟩

variable {site : Site} {target : String} {sel : Selection} {scan : Scan}

def matching (d : Disk) (sel : Selection) (root : String) (entries : List (String × Node)) :
    List Candidate :=
  (candidates d sel.ignores root entries).filter fun c => matchesAny sel.includes c.relative

theorem mem_matching_iff {d : Disk} {root : String} {entries : List (String × Node)}
    (h : (Node.folder entries).Tidy) {c : Candidate} :
    c ∈ matching d sel root entries ↔
      (∃ names, Leads d sel.ignores root "" (.folder entries) names c) ∧
        matchesAny sel.includes c.relative = true := by
  rw [matching, List.mem_filter, (candidates_listed d sel.ignores root h).mem_iff]

theorem eligible_iff {d : Disk} {root : String} {entries : List (String × Node)}
    (h : (Node.folder entries).Tidy) {c : Candidate} {bytes : List UInt8} :
    Eligible d sel root entries c bytes ↔
      c ∈ matching d sel root entries ∧ c.content = .ok bytes := by
  rw [mem_matching_iff h]
  exact ⟨fun ⟨hleads, hincluded, hcontent⟩ => ⟨⟨hleads, hincluded⟩, hcontent⟩,
    fun ⟨⟨hleads, hincluded⟩, hcontent⟩ => ⟨hleads, hincluded, hcontent⟩⟩

/-- What a scan of a tidy folder keeps and what it finds too large. -/
theorem run_lists (h : site.disk.top.Tidy) (e : Scan.run site target sel = .ok scan) :
    ∃ entries, (site.expand target >>= site.resolve) = .ok scan.root ∧
      site.find? scan.root = .ok (some (.folder entries)) ∧
      Lists site.disk sel scan.root entries scan.files ∧
      (scan.files.map (·.relative) ++ scan.skipped).Nodup ∧
      ∀ path, path ∈ scan.files.map (·.relative) ++ scan.skipped ↔
        ∃ c bytes, Eligible site.disk sel scan.root entries c bytes ∧ c.relative = path := by
  obtain ⟨root, entries, hroot, hfind, rfl⟩ := Scan.run_eq_ok_iff.1 e
  have htidy := Site.find?_tidy h hfind
  have hperm := settle_perm sel.maxFileSize 0 (matching site.disk sel root entries)
  have hlisted := candidates_listed site.disk sel.ignores root htidy
  refine ⟨entries, hroot, hfind, ?_, ?_, fun path => ?_⟩
  · constructor
    case sound =>
      intro f hf
      obtain ⟨c, hc, bytes, hcontent, hle, hsource⟩ := mem_kept hf
      exact ⟨c, bytes, (eligible_iff htidy).2 ⟨hc, hcontent⟩, hle, hsource⟩
    case complete =>
      intro c bytes heligible hle
      obtain ⟨hc, hcontent⟩ := (eligible_iff htidy).1 heligible
      exact exists_kept hc hcontent hle
    case indexed => exact index_kept
    case ordered => exact kept_pairwise (hlisted.ordered.sublist List.filter_sublist)
  · refine hperm.nodup_iff.2 ?_
    refine (candidates_nodup site.disk sel.ignores root htidy).sublist ?_
    exact (List.filter_sublist.trans List.filter_sublist).map _
  · refine hperm.mem_iff.trans ?_
    rw [List.mem_map]
    constructor
    · rintro ⟨c, hc, rfl⟩
      obtain ⟨hc, hok⟩ := List.mem_filter.1 hc
      cases hcontent : c.content with
      | error f => rw [hcontent] at hok; cases hok
      | ok bytes => exact ⟨c, bytes, (eligible_iff htidy).2 ⟨hc, hcontent⟩, rfl⟩
    · rintro ⟨c, bytes, heligible, rfl⟩
      obtain ⟨hc, hcontent⟩ := (eligible_iff htidy).1 heligible
      exact ⟨c, List.mem_filter.2 ⟨hc, by rw [hcontent]; rfl⟩, rfl⟩

end Scan

end PerfReview
