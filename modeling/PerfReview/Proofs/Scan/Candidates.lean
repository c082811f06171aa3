import Mathlib.Data.String.Basic
import PerfReview.Proofs.Scan.Paths

/-!
# The candidates of a folder

The candidates of a scan, read off the tree: `Leads … names c` says that the names lead from a node
to the file `c` through folders that are entered. A scan meets each of these files, and it meets
them in the order `Before`: the files of a folder by their names, and then what its sub-folders
hold, folder by folder.
-/

namespace PerfReview.Scan

/-- What a scan reads of an entry that it takes for a file. -/
def content? (d : Disk) (path : String) : Node → Option (Except DiskFault (List UInt8))
  | .file bytes _ => some (reached path bytes)
  | .link _ => if d.leadsToFolder path then none else some (d.read path)
  | .folder _ => none

/-- From the node at a path the names lead to a file, which is not ignored, and no folder on the way is
closed. -/
structure Leads (d : Disk) (ignores : List String) (path relative : String) (n : Node)
    (names : List String) (c : Candidate) : Prop where
  path_eq : c.path = names.foldl Path.join path
  relative_eq : c.relative = names.foldl under relative
  content : ∃ m, n.at? names = some m ∧ content? d c.path m = some c.content
  entered : ∀ front, front <+: names → front ≠ [] → front ≠ names →
    isClosed ignores (front.foldl Path.join path) (front.foldl under relative) = false
  kept : matchesAny ignores c.relative = false

/-- The order in which the files at the end of two ways are met. -/
inductive Before : List String → List String → Prop where
  | files {a b : String} : a < b → Before [a] [b]
  | fileFirst {a b : String} {bs : List String} : bs ≠ [] → Before [a] (b :: bs)
  | folders {a b : String} {as bs : List String} : a < b → as ≠ [] → bs ≠ [] →
      Before (a :: as) (b :: bs)
  | within {a : String} {as bs : List String} : Before as bs → Before (a :: as) (a :: bs)

theorem Before.ne_nil {as bs : List String} (h : Before as bs) : as ≠ [] ∧ bs ≠ [] := by
  cases h <;> exact ⟨List.cons_ne_nil _ _, List.cons_ne_nil _ _⟩

theorem Before.asymm {as bs : List String} (h : Before as bs) : ¬ Before bs as := by
  induction h with
  | files hlt =>
    intro h'
    cases h' with
    | files hlt' => exact lt_asymm hlt hlt'
    | fileFirst hne => exact hne rfl
    | folders _ hne => exact hne rfl
    | within hw => exact hw.ne_nil.1 rfl
  | fileFirst hne =>
    intro h'
    cases h' with
    | files => exact hne rfl
    | fileFirst hne' => exact hne' rfl
    | folders _ _ hne' => exact hne' rfl
    | within hw => exact hw.ne_nil.2 rfl
  | folders hlt has hbs =>
    intro h'
    cases h' with
    | files => exact has rfl
    | fileFirst => exact hbs rfl
    | folders hlt' => exact lt_asymm hlt hlt'
    | within => exact lt_irrefl _ hlt
  | within hw ih =>
    intro h'
    cases h' with
    | files => exact hw.ne_nil.1 rfl
    | fileFirst => exact hw.ne_nil.2 rfl
    | folders hlt => exact lt_irrefl _ hlt
    | within hw' => exact ih hw'

/-- Ways from the node lead to the two files, to the first one before the second. -/
def Follows (d : Disk) (ignores : List String) (path relative : String) (n : Node)
    (c c' : Candidate) : Prop :=
  ∃ names names', Leads d ignores path relative n names c ∧
    Leads d ignores path relative n names' c' ∧ Before names names'

/-- The candidates are the files that ways from the node lead to, in their order. -/
structure Listed (d : Disk) (ignores : List String) (path relative : String) (n : Node)
    (found : List Candidate) : Prop where
  mem_iff : ∀ c, c ∈ found ↔ ∃ names, Leads d ignores path relative n names c
  ordered : found.Pairwise (Follows d ignores path relative n)

variable {d : Disk} {ignores : List String} {path relative : String} {n : Node}
  {entries : List (String × Node)} {name : String} {names : List String} {c : Candidate}

/-! ## Ways -/

theorem leads_nil : Leads d ignores path relative n [] c ↔
    c.path = path ∧ c.relative = relative ∧ content? d path n = some c.content ∧
      matchesAny ignores relative = false := by
  constructor
  · rintro ⟨hpath, hrelative, ⟨m, hm, hcontent⟩, -, hkept⟩
    have hm : n = m := by cases n <;> exact Option.some.inj hm
    subst hm
    rw [hpath] at hcontent
    rw [hrelative] at hkept
    exact ⟨hpath, hrelative, hcontent, hkept⟩
  · rintro ⟨rfl, rfl, hcontent, hkept⟩
    refine ⟨rfl, rfl, ⟨n, by cases n <;> rfl, hcontent⟩, fun front hpre hne => ?_, hkept⟩
    exact absurd (List.prefix_nil.1 hpre) hne

theorem leads_cons : Leads d ignores path relative (.folder entries) (name :: names) c ↔
    ∃ n, Assoc.get? entries name = some n ∧
      (names ≠ [] → isClosed ignores (Path.join path name) (under relative name) = false) ∧
      Leads d ignores (Path.join path name) (under relative name) n names c := by
  constructor
  · rintro ⟨hpath, hrelative, ⟨m, hm, hcontent⟩, hentered, hkept⟩
    obtain ⟨n, hn, hm⟩ := Option.bind_eq_some_iff.1 hm
    refine ⟨n, hn, fun hne => ?_, hpath, hrelative, ⟨m, hm, hcontent⟩, ?_, hkept⟩
    · refine hentered [name] ⟨names, rfl⟩ (List.cons_ne_nil _ _) fun e => hne ?_
      exact (List.cons.inj e).2.symm
    · intro front hpre hne hne'
      refine hentered (name :: front) ((List.prefix_cons_inj name).2 hpre) (List.cons_ne_nil _ _) ?_
      exact fun e => hne' (List.cons.inj e).2
  · rintro ⟨n, hn, hfirst, hpath, hrelative, ⟨m, hm, hcontent⟩, hentered, hkept⟩
    refine ⟨hpath, hrelative, ⟨m, Option.bind_eq_some_iff.2 ⟨n, hn, hm⟩, hcontent⟩, ?_, hkept⟩
    intro front hpre hne hne'
    rcases List.prefix_cons_iff.1 hpre with rfl | ⟨front, rfl, hpre'⟩
    · exact absurd rfl hne
    · cases front with
      | nil => exact hfirst fun e => hne' (by rw [e])
      | cons a front =>
        exact hentered (a :: front) hpre' (List.cons_ne_nil _ _) fun e => hne' (by rw [e])

theorem Leads.ne_nil (h : Leads d ignores path relative (.folder entries) names c) :
    names ≠ [] := by
  rintro rfl
  obtain ⟨-, -, hcontent, -⟩ := leads_nil.1 h
  cases hcontent

theorem Leads.isFolder (h : Leads d ignores path relative n names c) (hne : names ≠ []) :
    n.isFolder = true := by
  obtain ⟨m, hm, -⟩ := h.content
  obtain ⟨name, names, rfl⟩ := List.exists_cons_of_ne_nil hne
  cases n with
  | folder entries => rfl
  | file => cases hm
  | link => cases hm

/-! ## Visits -/

theorem candidate?_visited {e : String × Node} :
    candidate? ignores path relative (visited d ignores path relative e) = some c ↔
      Leads d ignores (Path.join path e.1) (under relative e.1) e.2 [] c := by
  obtain ⟨name, n⟩ := e
  obtain ⟨cpath, crelative, ccontent⟩ := c
  rw [leads_nil]
  cases n with
  | file bytes mode =>
    cases h : matchesAny ignores (under relative name) <;>
      simp [visited, visit, candidate?, content?, h, eq_comm]
  | link target =>
    cases h : matchesAny ignores (under relative name) <;>
      cases hd : d.leadsToFolder (Path.join path name) <;>
        simp [visited, visit, candidate?, content?, h, hd, eq_comm]
  | folder entries =>
    cases h : isClosed ignores (Path.join path name) (under relative name) <;>
      simp [visited, visit, candidate?, content?, h]

/-- The ways through an entry are listed below it. -/
structure Through (d : Disk) (ignores : List String) (path relative : String) (e : String × Node) :
    Prop where
  mem_iff : ∀ c, c ∈ below (visited d ignores path relative e) ↔
    isClosed ignores (Path.join path e.1) (under relative e.1) = false ∧
      ∃ names, names ≠ [] ∧ Leads d ignores (Path.join path e.1) (under relative e.1) e.2 names c
  ordered : (below (visited d ignores path relative e)).Pairwise
    (Follows d ignores (Path.join path e.1) (under relative e.1) e.2)

/-- The entries of a folder as a scan visits them, in the order of their names. -/
theorem pairwise_ordered (hn : (entries.map (·.1)).Nodup) :
    ((visitAll d ignores path relative entries).mergeSort fun a b => a.1 ≤ b.1).Pairwise
      (·.1 < ·.1) := by
  have hperm := List.mergeSort_perm (visitAll d ignores path relative entries) fun a b => a.1 ≤ b.1
  have hkeys : ((visitAll d ignores path relative entries).map (·.1)).Nodup := by
    rw [visitAll_eq_map, List.map_map]
    exact hn
  have hne := List.pairwise_map.1 (((hperm.map (·.1)).nodup_iff).2 hkeys)
  have htrans : ∀ a b c : String × Visit, decide (a.1 ≤ b.1) = true → decide (b.1 ≤ c.1) = true →
      decide (a.1 ≤ c.1) = true :=
    fun a b c hab hbc => decide_eq_true (le_trans (of_decide_eq_true hab) (of_decide_eq_true hbc))
  have htotal : ∀ a b : String × Visit, (decide (a.1 ≤ b.1) || decide (b.1 ≤ a.1)) = true :=
    fun a b => by simpa using le_total a.1 b.1
  have hle := List.pairwise_mergeSort htrans htotal (visitAll d ignores path relative entries)
  exact (hle.and hne).imp fun h => lt_of_le_of_ne (of_decide_eq_true h.1) h.2

theorem leads_folder (hn : (entries.map (·.1)).Nodup) :
    Leads d ignores path relative (.folder entries) names c ↔ ∃ e ∈ entries, ∃ rest,
      names = e.1 :: rest ∧
      (rest ≠ [] → isClosed ignores (Path.join path e.1) (under relative e.1) = false) ∧
      Leads d ignores (Path.join path e.1) (under relative e.1) e.2 rest c := by
  constructor
  · intro h
    obtain ⟨name, rest, rfl⟩ := List.exists_cons_of_ne_nil h.ne_nil
    obtain ⟨n, hget, hrest⟩ := leads_cons.1 h
    exact ⟨(name, n), Assoc.mem_of_get?_eq_some hget, rest, rfl, hrest⟩
  · rintro ⟨e, he, rest, rfl, hrest⟩
    exact leads_cons.2 ⟨e.2, (Assoc.get?_eq_some_iff hn).2 he, hrest⟩

section
variable (hn : (entries.map (·.1)).Nodup) {e : String × Node} (he : e ∈ entries)
include hn he

theorem leads_of_candidate?
    (h : candidate? ignores path relative (visited d ignores path relative e) = some c) :
    Leads d ignores path relative (.folder entries) [e.1] c :=
  (leads_folder hn).2 ⟨e, he, [], rfl, fun hne => absurd rfl hne, candidate?_visited.1 h⟩

theorem leads_of_mem_below (ht : Through d ignores path relative e)
    (h : c ∈ below (visited d ignores path relative e)) :
    ∃ rest, rest ≠ [] ∧ Leads d ignores path relative (.folder entries) (e.1 :: rest) c := by
  obtain ⟨hopen, rest, hne, hrest⟩ := (ht.mem_iff c).1 h
  exact ⟨rest, hne, (leads_folder hn).2 ⟨e, he, rest, rfl, fun _ => hopen, hrest⟩⟩

/-- What lies below an entry keeps its order in the folder. -/
theorem follows_of_through (ht : Through d ignores path relative e) :
    (below (visited d ignores path relative e)).Pairwise
      (Follows d ignores path relative (.folder entries)) := by
  refine ht.ordered.imp_of_mem fun {c c'} hc _ hfollows => ?_
  obtain ⟨hopen, -⟩ := (ht.mem_iff c).1 hc
  obtain ⟨names, names', hnames, hnames', hbefore⟩ := hfollows
  exact ⟨e.1 :: names, e.1 :: names',
    (leads_folder hn).2 ⟨e, he, names, rfl, fun _ => hopen, hnames⟩,
    (leads_folder hn).2 ⟨e, he, names', rfl, fun _ => hopen, hnames'⟩, .within hbefore⟩

end

section
variable (hn : (entries.map (·.1)).Nodup)
  (h : ∀ e ∈ entries, Through d ignores path relative e)
include hn h

/-- The files of a folder are those among its entries and those below them. -/
theorem mem_arrange_iff :
    c ∈ arrange ignores path relative (visitAll d ignores path relative entries) ↔
      ∃ names, Leads d ignores path relative (.folder entries) names c := by
  rw [(arrange_perm ignores path relative _).mem_iff, visitAll_eq_map, List.flatMap_map,
    List.mem_flatMap]
  constructor
  · rintro ⟨e, he, hc⟩
    rcases List.mem_append.1 hc with hc | hc
    · exact ⟨[e.1], leads_of_candidate? hn he (Option.mem_toList.1 hc)⟩
    · obtain ⟨rest, -, hrest⟩ := leads_of_mem_below hn he (h e he) hc
      exact ⟨e.1 :: rest, hrest⟩
  · rintro ⟨names, hnames⟩
    obtain ⟨e, he, rest, -, hopen, hrest⟩ := (leads_folder hn).1 hnames
    refine ⟨e, he, List.mem_append.2 ?_⟩
    by_cases hne : rest = []
    · subst hne
      exact .inl (Option.mem_toList.2 (candidate?_visited.2 hrest))
    · exact .inr (((h e he).mem_iff c).2 ⟨hopen hne, rest, hne, hrest⟩)

/-- The files of a folder come by their names, those below its sub-folders after its own. -/
theorem pairwise_arrange :
    (arrange ignores path relative (visitAll d ignores path relative entries)).Pairwise
      (Follows d ignores path relative (.folder entries)) := by
  have hsorted : ((visitAll d ignores path relative entries).mergeSort fun a b =>
      a.1 ≤ b.1).Pairwise (·.1 < ·.1) := pairwise_ordered hn
  have hentry : ∀ v ∈ (visitAll d ignores path relative entries).mergeSort fun a b => a.1 ≤ b.1,
      ∃ e ∈ entries, visited d ignores path relative e = v := by
    intro v hv
    rw [(List.mergeSort_perm _ _).mem_iff, visitAll_eq_map] at hv
    exact List.mem_map.1 hv
  unfold arrange
  generalize (visitAll d ignores path relative entries).mergeSort _ = ordered at hsorted hentry
  refine List.pairwise_append.2 ⟨?_, List.pairwise_flatMap.2 ⟨?_, ?_⟩, ?_⟩
  · -- two files of the folder
    refine List.pairwise_filterMap.2 (hsorted.imp_of_mem fun {v w} hv hw hlt c hc c' hc' => ?_)
    obtain ⟨e, he, rfl⟩ := hentry v hv
    obtain ⟨e', he', rfl⟩ := hentry w hw
    exact ⟨[e.1], [e'.1], leads_of_candidate? hn he hc, leads_of_candidate? hn he' hc',
      .files hlt⟩
  · -- two files below one sub-folder
    intro v hv
    obtain ⟨e, he, rfl⟩ := hentry v hv
    exact follows_of_through hn he (h e he)
  · -- files below different sub-folders
    refine hsorted.imp_of_mem fun {v w} hv hw hlt c hc c' hc' => ?_
    obtain ⟨e, he, rfl⟩ := hentry v hv
    obtain ⟨e', he', rfl⟩ := hentry w hw
    obtain ⟨rest, hne, hrest⟩ := leads_of_mem_below hn he (h e he) hc
    obtain ⟨rest', hne', hrest'⟩ := leads_of_mem_below hn he' (h e' he') hc'
    exact ⟨e.1 :: rest, e'.1 :: rest', hrest, hrest', .folders hlt hne hne'⟩
  · -- a file of the folder and one below a sub-folder
    intro c hc c' hc'
    obtain ⟨v, hv, hc⟩ := List.mem_filterMap.1 hc
    obtain ⟨w, hw, hc'⟩ := List.mem_flatMap.1 hc'
    obtain ⟨e, he, rfl⟩ := hentry v hv
    obtain ⟨e', he', rfl⟩ := hentry w hw
    obtain ⟨rest', hne', hrest'⟩ := leads_of_mem_below hn he' (h e' he') hc'
    exact ⟨[e.1], e'.1 :: rest', leads_of_candidate? hn he hc, hrest', .fileFirst hne'⟩

theorem listed_arrange :
    Listed d ignores path relative (.folder entries)
      (arrange ignores path relative (visitAll d ignores path relative entries)) where
  mem_iff _ := mem_arrange_iff hn h
  ordered := pairwise_arrange hn h

end

theorem through_of_not_isFolder {e : String × Node} (h : e.2.isFolder = false) :
    Through d ignores path relative e := by
  obtain ⟨name, n⟩ := e
  have hbelow : below (visited d ignores path relative (name, n)) = [] := by
    cases n with
    | folder => cases h
    | file => rfl
    | link =>
      rw [visited, visit]
      split <;> rfl
  refine ⟨fun c => ?_, by rw [hbelow]; exact .nil⟩
  rw [hbelow]
  refine ⟨fun hc => absurd hc List.not_mem_nil, ?_⟩
  rintro ⟨-, names, hne, hnames⟩
  have hfolder := hnames.isFolder hne
  rw [h] at hfolder
  cases hfolder

/-- What lies below a tidy entry is listed. -/
theorem through_of_tidy (h : n.Tidy) : Through d ignores path relative (name, n) := by
  induction h generalizing path relative name with
  | file => exact through_of_not_isFolder rfl
  | link => exact through_of_not_isFolder rfl
  | @folder entries hn hnames htidy ih =>
    have hlisted : Listed d ignores (Path.join path name) (under relative name)
        (.folder entries) _ :=
      listed_arrange hn fun e he => ih e he
    cases hclosed : isClosed ignores (Path.join path name) (under relative name) with
    | true =>
      have hbelow : below (visited d ignores path relative (name, .folder entries)) = [] := by
        rw [visited, visit, if_pos hclosed]
        rfl
      refine ⟨fun c => ?_, by rw [hbelow]; exact .nil⟩
      simp [hbelow, hclosed]
    | false =>
      have hbelow : below (visited d ignores path relative (name, .folder entries)) =
          arrange ignores (Path.join path name) (under relative name)
            (visitAll d ignores (Path.join path name) (under relative name) entries) := by
        rw [visited, visit, if_neg (by simp [hclosed])]
        rfl
      refine ⟨fun c => ?_, by rw [hbelow]; exact hlisted.ordered⟩
      rw [hbelow, hlisted.mem_iff]
      constructor
      · rintro ⟨names, hnames⟩
        exact ⟨hclosed, names, hnames.ne_nil, hnames⟩
      · rintro ⟨-, names, -, hnames⟩
        exact ⟨names, hnames⟩

/-- The candidates below a tidy folder are the files that the ways from it lead to. -/
theorem candidates_listed (d : Disk) (ignores : List String) (root : String)
    (h : (Node.folder entries).Tidy) :
    Listed d ignores root "" (.folder entries) (candidates d ignores root entries) := by
  cases h with
  | folder hn hnames htidy => exact listed_arrange hn fun e he => through_of_tidy (htidy e he)

end PerfReview.Scan
