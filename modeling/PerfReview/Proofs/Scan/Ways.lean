import PerfReview.Proofs.Path
import PerfReview.Proofs.Scan.Listing

/-!
# What a scan finds

`Qualifies … names bytes` says that the names lead below a folder to an entry that holds the bytes,
and that no pattern keeps the entry out. A scan meets the ways that qualify in the order `Before`;
it keeps the files that are small enough, numbered in this order, and names the others.
-/

namespace PerfReview

namespace Scan

/-- The path below the folder that names on a way make up. -/
def way (names : List String) : String := String.intercalate "/" names

/-- The names lead to an entry that is no folder and no link to one, and that holds the bytes. No
folder on the way is ignored, nor is the entry, which matches an include pattern. -/
structure Qualifies (d : Disk) (sel : Selection) (root : String) (entries : List (String × Node))
    (names : List String) (bytes : List UInt8) : Prop where
  entry : ∃ n, (Node.folder entries).at? names = some n ∧
    content? d (names.foldl Path.join root) n = some (.ok bytes)
  entered : ∀ front, front <+: names → front ≠ [] → front ≠ names →
    matchesAny sel.ignores (way front ++ "/") = false
  kept : matchesAny sel.ignores (way names) = false
  included : matchesAny sel.includes (way names) = true

def candidateAt (root : String) (names : List String) (bytes : List UInt8) : Candidate :=
  ⟨names.foldl Path.join root, way names, .ok bytes⟩

/-- The file at the end of a way, at its place in the order of discovery. -/
def sourceAt (root : String) (names : List String) (bytes : List UInt8) (index : Nat) : Source :=
  (candidateAt root names bytes).source bytes index

/-! ## Names and paths -/

theorem foldl_under {folder : String} {names : List String} (hf : folder ≠ "")
    (h : ∀ n ∈ names, IsName n) : names.foldl under folder = way (folder :: names) := by
  induction names generalizing folder with
  | nil => exact String.intercalate_singleton.symm
  | cons n names ih =>
    obtain ⟨hn, hnames⟩ := List.forall_mem_cons.1 h
    rw [List.foldl_cons, ih (under_ne hn) hnames, way, way, String.intercalate_cons_cons, under,
      if_neg hf]
    cases names with
    | nil => simp [toString]
    | cons n' names => simp [toString, String.intercalate_cons_cons, String.append_assoc]

/-- The path at the end of a way is made of the names on it. -/
theorem foldl_under_empty {names : List String} (h : ∀ n ∈ names, IsName n) :
    names.foldl under "" = way names := by
  cases names with
  | nil => rfl
  | cons n names =>
    obtain ⟨hn, hnames⟩ := List.forall_mem_cons.1 h
    rw [List.foldl_cons, under, if_pos rfl, foldl_under hn.1 hnames]

def namesOf (path : String) : List String :=
  (Text.splitOn '/' path.toList).map String.ofList

theorem namesOf_way {names : List String} (hne : names ≠ []) (h : ∀ n ∈ names, IsName n) :
    namesOf (way names) = names := Path.pieces_intercalate hne h

/-! ## Ways and candidates -/

variable {d : Disk} {sel : Selection} {root : String} {entries : List (String × Node)}

/-- What can be read has a path that is not too long. -/
theorem size_of_content {path : String} {n : Node} {bytes : List UInt8}
    (h : content? d path n = some (.ok bytes)) : path.utf8ByteSize < Path.maxLength := by
  refine Nat.lt_of_not_le fun hlong => ?_
  cases n with
  | folder => cases h
  | file bytes' mode => simp [content?, reached, hlong] at h
  | link target => simp [content?, Disk.leadsToFolder, Disk.read, Disk.lookup, hlong] at h

section
variable (h : (Node.folder entries).Tidy) {names : List String} {c : Candidate} {bytes : List UInt8}
include h

theorem names_of_leads {ignores : List String}
    (hl : Leads d ignores root "" (.folder entries) names c) :
    c.relative = way names ∧ namesOf c.relative = names := by
  obtain ⟨m, hm, -⟩ := hl.content
  have hnames := h.isName_of_at? hm
  have hway : c.relative = way names := hl.relative_eq.trans (foldl_under_empty hnames)
  exact ⟨hway, hway ▸ namesOf_way hl.ne_nil hnames⟩

theorem isClosed_iff_of_content {ignores front : List String} {m : Node}
    (hm : (Node.folder entries).at? names = some m)
    (hcontent : content? d (names.foldl Path.join root) m = some (.ok bytes))
    (hpre : front <+: names) (hne : front ≠ []) :
    isClosed ignores (front.foldl Path.join root) (front.foldl under "") = false ↔
      matchesAny ignores (way front ++ "/") = false := by
  have hnames := h.isName_of_at? hm
  have hsize := Path.size_of_isPrefix root hpre hne hnames
  have hfits := size_of_content hcontent
  rw [isClosed, Bool.or_eq_false_iff, foldl_under_empty fun n hn => hnames n (hpre.subset hn)]
  exact and_iff_left (decide_eq_false (by omega))

theorem leads_candidateAt_iff : Leads d sel.ignores root "" (.folder entries) names
      (candidateAt root names bytes) ∧ matchesAny sel.includes (way names) = true ↔
    Qualifies d sel root entries names bytes := by
  constructor
  · rintro ⟨⟨-, -, ⟨m, hm, hcontent⟩, hentered, hkept⟩, hincluded⟩
    refine ⟨⟨m, hm, hcontent⟩, fun front hpre hne hne' => ?_, hkept, hincluded⟩
    exact (isClosed_iff_of_content h hm hcontent hpre hne).1 (hentered front hpre hne hne')
  · rintro ⟨⟨m, hm, hcontent⟩, hentered, hkept, hincluded⟩
    have hway : names.foldl under "" = way names := foldl_under_empty (h.isName_of_at? hm)
    refine ⟨⟨rfl, hway.symm, ⟨m, hm, hcontent⟩, fun front hpre hne hne' => ?_, hkept⟩, hincluded⟩
    exact (isClosed_iff_of_content h hm hcontent hpre hne).2 (hentered front hpre hne hne')

/-- A candidate whose bytes can be read stands at the end of the way that its path spells. -/
theorem eq_candidateAt {ignores : List String}
    (hl : Leads d ignores root "" (.folder entries) names c) (hc : c.content = .ok bytes) :
    c = candidateAt root (namesOf c.relative) bytes := by
  obtain ⟨hway, hnames⟩ := names_of_leads h hl
  obtain ⟨path, relative, content⟩ := c
  have hpath : path = names.foldl Path.join root := hl.path_eq
  dsimp only at hway hnames hc
  rw [hnames, candidateAt, hpath, hc, hway]

end

/-- The way that a candidate stands at the end of, with the bytes that are read there. -/
def met? (c : Candidate) : Option (List String × List UInt8) :=
  c.content.toOption.map (namesOf c.relative, ·)

theorem met?_eq_some_iff {c : Candidate} {w : List String × List UInt8} :
    met? c = some w ↔ namesOf c.relative = w.1 ∧ c.content = .ok w.2 := by
  unfold met?
  cases c.content with
  | error f => simp [Except.toOption]
  | ok bytes => simp [Except.toOption, Prod.ext_iff]

theorem mem_met_iff (h : (Node.folder entries).Tidy) {names : List String} {bytes : List UInt8} :
    (names, bytes) ∈ (matching d sel root entries).filterMap met? ↔
      Qualifies d sel root entries names bytes := by
  rw [List.mem_filterMap, ← leads_candidateAt_iff h]
  constructor
  · rintro ⟨c, hc, hw⟩
    obtain ⟨⟨names', hleads⟩, hincluded⟩ := (mem_matching_iff h).1 hc
    obtain ⟨hnames, hcontent⟩ := met?_eq_some_iff.1 hw
    obtain ⟨hway, hnames'⟩ := names_of_leads h hleads
    cases hnames'.symm.trans hnames
    rw [eq_candidateAt h hleads hcontent, hnames] at hleads
    exact ⟨hleads, hway ▸ hincluded⟩
  · rintro ⟨hleads, hincluded⟩
    exact ⟨_, (mem_matching_iff h).2 ⟨⟨names, hleads⟩, hincluded⟩,
      met?_eq_some_iff.2 ⟨(names_of_leads h hleads).2, rfl⟩⟩

theorem matching_pairwise (h : (Node.folder entries).Tidy) :
    (matching d sel root entries).Pairwise fun c c' =>
      Before (namesOf c.relative) (namesOf c'.relative) := by
  have hordered := (candidates_listed d sel.ignores root h).ordered.sublist
    (List.filter_sublist (p := fun c => matchesAny sel.includes c.relative))
  refine hordered.imp fun {c c'} hfollows => ?_
  obtain ⟨names, names', hleads, hleads', hbefore⟩ := hfollows
  rw [(names_of_leads h hleads).2, (names_of_leads h hleads').2]
  exact hbefore

theorem met_pairwise (h : (Node.folder entries).Tidy) :
    ((matching d sel root entries).filterMap met?).Pairwise fun v w => Before v.1 w.1 := by
  refine List.pairwise_filterMap.2 ((matching_pairwise h).imp fun {c c'} hbefore v hv w hw => ?_)
  rw [← (met?_eq_some_iff.1 hv).1, ← (met?_eq_some_iff.1 hw).1]
  exact hbefore

/-! ## Files and paths -/

theorem filter_met (maxFileSize : Int) (cs : List Candidate) :
    ((cs.filterMap met?).filter fun w => w.2.length ≤ maxFileSize) =
      (cs.filterMap (sized? maxFileSize)).map fun x => (namesOf x.1.relative, x.2) := by
  rw [List.filter_filterMap, List.map_filterMap]
  refine List.filterMap_congr fun c _ => ?_
  unfold met? sized?
  cases c.content with
  | error f => rfl
  | ok bytes =>
    by_cases hle : (bytes.length : Int) ≤ maxFileSize
    · simp [Except.toOption, hle, not_lt.2 hle]
    · simp [Except.toOption, not_le.1 hle]

/-- The files kept stand at the ends of the ways to files that are small enough. -/
theorem kept_met (maxFileSize : Int) {cs : List Candidate}
    (h : ∀ c ∈ cs, ∀ bytes, c.content = .ok bytes →
      c = candidateAt root (namesOf c.relative) bytes) :
    (settle maxFileSize 0 cs).filterMap kept? =
      ((cs.filterMap met?).filter fun w => w.2.length ≤ maxFileSize).zipIdx.map
        fun x => sourceAt root x.1.1 x.1.2 x.2 := by
  rw [kept_settle, filter_met, List.zipIdx_map, List.map_map]
  refine List.map_congr_left fun x hx => ?_
  obtain ⟨c, hc, hsized⟩ := List.mem_filterMap.1 (List.fst_mem_of_mem_zipIdx hx)
  obtain ⟨rfl, hcontent, -⟩ := sized?_eq_some_iff.1 hsized
  exact congrArg (·.source x.1.2 x.2) (h _ hc _ hcontent)

/-- The paths of the files that are too large, in the order in which they are met. -/
theorem oversize_met (maxFileSize : Int) (index : Nat) {cs : List Candidate}
    (h : ∀ c ∈ cs, c.relative = way (namesOf c.relative)) :
    (settle maxFileSize index cs).filterMap oversize? =
      ((cs.filterMap met?).filter fun w => maxFileSize < w.2.length).map (way ·.1) := by
  induction cs generalizing index with
  | nil => rfl
  | cons c cs ih =>
    obtain ⟨hc, hcs⟩ := List.forall_mem_cons.1 h
    rw [settle, List.filterMap_cons, met?]
    cases c.content with
    | error f =>
      simp only [List.filterMap_cons, oversize?, Except.toOption, Option.map_none]
      exact ih index hcs
    | ok bytes =>
      dsimp only [Except.toOption, Option.map_some]
      split
      · rename_i hlt
        rw [List.filterMap_cons, List.filter_cons_of_pos (by simpa using hlt), List.map_cons,
          ← hc, ih index hcs]
        rfl
      · rename_i hle
        rw [List.filterMap_cons, List.filter_cons_of_neg (by simpa using hle), ← ih _ hcs]
        rfl

/-! ## Whole scans -/

/-- The scan has gone through the ways that qualify: it keeps the files that are small enough,
numbered in the order in which it met them, and names those that are too large. -/
structure Finds (d : Disk) (sel : Selection) (root : String) (entries : List (String × Node))
    (ways : List (List String × List UInt8)) (scan : Scan) : Prop where
  root_eq : scan.root = root
  mem_iff : ∀ names bytes, (names, bytes) ∈ ways ↔ Qualifies d sel root entries names bytes
  ordered : ways.Pairwise fun v w => Before v.1 w.1
  files : scan.files = (ways.filter fun w => w.2.length ≤ sel.maxFileSize).zipIdx.map
    fun x => sourceAt root x.1.1 x.1.2 x.2
  skipped : scan.skipped = (ways.filter fun w => sel.maxFileSize < w.2.length).map (way ·.1)
  nodup : (scan.files.map (·.relative) ++ scan.skipped).Nodup

/-- A scan of a tidy folder finds what qualifies. -/
theorem run_finds (site : Site) (target : String) (sel : Selection) {root : String}
    {entries : List (String × Node)} (hsite : site.disk.top.Tidy)
    (hroot : (site.expand target >>= site.resolve) = .ok root)
    (hfind : site.find? root = .ok (some (.folder entries))) :
    ∃ scan ways, Scan.run site target sel = .ok scan ∧
      Finds site.disk sel root entries ways scan := by
  have htidy := Site.find?_tidy hsite hfind
  have hleads : ∀ c ∈ matching site.disk sel root entries, ∃ names,
      Leads site.disk sel.ignores root "" (.folder entries) names c := fun c hc =>
    ((candidates_listed site.disk sel.ignores root htidy).mem_iff c).1 (List.mem_filter.1 hc).1
  have hrun : Scan.run site target sel = .ok ⟨root, sel.maxFileSize,
      settle sel.maxFileSize 0 (matching site.disk sel root entries)⟩ :=
    Scan.run_eq_ok_iff.2 ⟨root, entries, hroot, hfind, rfl⟩
  refine ⟨_, (matching site.disk sel root entries).filterMap met?, hrun, ?_⟩
  constructor
  case root_eq => rfl
  case mem_iff => exact fun names bytes => mem_met_iff htidy
  case ordered => exact met_pairwise htidy
  case files =>
    refine kept_met sel.maxFileSize fun c hc bytes hcontent => ?_
    obtain ⟨names, hl⟩ := hleads c hc
    exact eq_candidateAt htidy hl hcontent
  case skipped =>
    refine oversize_met sel.maxFileSize 0 fun c hc => ?_
    obtain ⟨names, hl⟩ := hleads c hc
    obtain ⟨hway, hnames⟩ := names_of_leads htidy hl
    rw [hnames, hway]
  case nodup =>
    obtain ⟨-, -, -, -, hnodup, -⟩ := run_lists hsite hrun
    exact hnodup

/-- A folder with a file, links to a file, to a folder and to nothing, and two folders. -/
def Sample.linkedDisk : Disk :=
  (((((Disk.empty.place "/p/z.js" (.file [120] 0o644)).place "/p/l.js" (.link "src/a.js")).place
    "/p/d.js" (.link "src")).place "/p/gone.js" (.link "nowhere")).place
    "/p/src/a.js" (.file [120, 10] 0o644)).place "/p/skip/c.js" (.file [120] 0o644)

def Sample.linkedSite : Site := { disk := Sample.linkedDisk, working := "/", home := "/" }

theorem Sample.linkedSite_tidy : Sample.linkedSite.disk.top.Tidy := by
  refine Disk.place_tidy (Disk.place_tidy ?_ _ .file) _ .file
  refine Disk.place_tidy (Disk.place_tidy (Disk.place_tidy ?_ _ .link) _ .link) _ .link
  exact Disk.place_tidy (d := .empty) Node.tidy_nil _ .file

theorem run_finds_links : Sample.linkedSite.disk.top.Tidy ∧
    (Sample.linkedSite.expand "/p" >>= Sample.linkedSite.resolve) = .ok "/p" ∧
    ∃ entries, Sample.linkedSite.find? "/p" = .ok (some (.folder entries)) ∧
      ∃ scan ways, Scan.run Sample.linkedSite "/p" ⟨["*.js"], ["skip/*"], 1⟩ = .ok scan ∧
        Finds Sample.linkedSite.disk ⟨["*.js"], ["skip/*"], 1⟩ "/p" entries ways scan := by
  have hroot : (Sample.linkedSite.expand "/p" >>= Sample.linkedSite.resolve) = .ok "/p" := by
    decide +kernel
  have hfind : Sample.linkedSite.find? "/p" = .ok (some (.folder _)) := rfl
  exact ⟨Sample.linkedSite_tidy, hroot, _, hfind,
    run_finds _ _ _ Sample.linkedSite_tidy hroot hfind⟩

end Scan

end PerfReview
