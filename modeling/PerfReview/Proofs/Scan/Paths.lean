import Mathlib.Data.List.Nodup
import Mathlib.Data.List.Perm.Basic
import PerfReview.Proofs.Disk.Tidy
import PerfReview.Scan

/-!
# The paths of scanned files

The paths of the files that a scan finds below a tidy folder are different: each is made of the
names on the way to its file.
-/

namespace PerfReview

/-! ## Paths below a folder -/

namespace Scan

/-- The path is that of the entry of a folder with a given name, or it lies below that entry. -/
def Below (folder name path : String) : Prop :=
  ∃ t, (t = [] ∨ t.head? = some '/') ∧ path.toList = (under folder name).toList ++ t

theorem toList_under (folder name : String) : (under folder name).toList =
    (if folder = "" then [] else folder.toList ++ ['/']) ++ name.toList := by
  unfold under
  split
  · rfl
  · simp [toString]

theorem under_ne {folder name : String} (h : IsName name) : under folder name ≠ "" := by
  intro e
  have hl := congrArg String.toList e
  rw [toList_under] at hl
  have hn : name.toList = [] := (List.append_eq_nil_iff.1 hl).2
  exact h.1 (String.toList_eq_nil_iff.1 hn)

/-- A path lies below one entry of a folder at most. -/
theorem Below.name_eq {folder n m path : String} (hn : IsName n) (hm : IsName m)
    (h : Below folder n path) (h' : Below folder m path) : n = m := by
  obtain ⟨t, ht, e⟩ := h
  obtain ⟨u, hu, e'⟩ := h'
  rw [e, toList_under, toList_under, List.append_assoc, List.append_assoc,
    List.append_cancel_left_eq] at e'
  have stops : ∀ {t : List Char}, t = [] ∨ t.head? = some '/' → Text.Stops (· ≠ '/') t := by
    rintro t (rfl | h) c hc
    · cases hc
    · rw [h] at hc
      cases hc
      rfl
  have cut : ∀ {s : String} {t : List Char}, IsName s → t = [] ∨ t.head? = some '/' →
      (s.toList ++ t).span (· ≠ '/') = (s.toList, t) := fun hs ht =>
    Text.span_append_of_stops (fun c hc => decide_eq_true fun e => hs.2 (e ▸ hc)) (stops ht)
  have hcut := cut hn ht
  rw [e', cut hm hu] at hcut
  exact String.toList_inj.1 (congrArg Prod.fst hcut).symm

/-! ## What a folder holds -/

/-- What an entry of a folder contributes to the candidates. -/
def own (ignores : List String) (path relative : String) (v : String × Visit) : List Candidate :=
  (candidate? ignores path relative v).toList ++ below v

theorem arrange_perm (ignores : List String) (path relative : String)
    (visits : List (String × Visit)) :
    (arrange ignores path relative visits).Perm (visits.flatMap (own ignores path relative)) := by
  have hsort := List.mergeSort_perm visits fun a b => a.1 ≤ b.1
  rw [arrange, List.filterMap_eq_flatMap_toList]
  exact (List.flatMap_append_perm _ _ _).trans (hsort.flatMap_right _)

/-- Candidates with different paths, each below the folder. -/
def Spread (folder : String) (found : List Candidate) : Prop :=
  (found.map (·.relative)).Nodup ∧
    ∀ c ∈ found, ∃ t, c.relative.toList = folder.toList ++ '/' :: t

theorem below_own (ignores : List String) (path : String) {relative : String} {v : String × Visit}
    (h : Spread (under relative v.1) (below v)) :
    ((own ignores path relative v).map (·.relative)).Nodup ∧
      ∀ c ∈ own ignores path relative v, Below relative v.1 c.relative := by
  obtain ⟨name, visit⟩ := v
  cases visit with
  | passed => exact ⟨by simp [own, candidate?, below], by simp [own, candidate?, below]⟩
  | folder found =>
    obtain ⟨hn, hb⟩ := h
    refine ⟨by simpa [own, candidate?] using hn, fun c hc => ?_⟩
    have hc : c ∈ found := by simpa [own, candidate?, below] using hc
    obtain ⟨t, ht⟩ := hb c hc
    exact ⟨'/' :: t, .inr rfl, ht⟩
  | file content =>
    simp only [own, candidate?, below, List.append_nil]
    split
    · exact ⟨by simp, by simp⟩
    · exact ⟨by simp, by simp [Below]⟩

theorem arrange_spread (ignores : List String) (path : String) {relative : String}
    {visits : List (String × Visit)} (hn : (visits.map (·.1)).Nodup)
    (hnames : ∀ v ∈ visits, IsName v.1)
    (hv : ∀ v ∈ visits, Spread (under relative v.1) (below v)) :
    ((arrange ignores path relative visits).map (·.relative)).Nodup ∧
      ∀ c ∈ arrange ignores path relative visits, ∃ v ∈ visits, Below relative v.1 c.relative := by
  have hperm := arrange_perm ignores path relative visits
  have hown : ∀ v ∈ visits, _ := fun v hmem =>
    below_own ignores path (hv v hmem)
  constructor
  · rw [(hperm.map (·.relative)).nodup_iff, List.map_flatMap, List.nodup_flatMap]
    refine ⟨fun v hmem => (hown v hmem).1, ?_⟩
    refine List.Pairwise.imp_of_mem ?_ (List.pairwise_map.1 hn)
    intro v w hvm hwm hne x hx hx'
    obtain ⟨c, hc, rfl⟩ := List.mem_map.1 hx
    obtain ⟨c', hc', e⟩ := List.mem_map.1 hx'
    have hb' := (hown w hwm).2 c' hc'
    rw [e] at hb'
    exact hne (((hown v hvm).2 c hc).name_eq (hnames v hvm) (hnames w hwm) hb')
  · intro c hc
    obtain ⟨v, hvm, hcv⟩ := List.mem_flatMap.1 (hperm.mem_iff.1 hc)
    exact ⟨v, hvm, (hown v hvm).2 c hcv⟩

/-- What an entry with its name is for a scan. -/
def visited (d : Disk) (ignores : List String) (path relative : String) (e : String × Node) :
    String × Visit :=
  (e.1, visit d ignores (Path.join path e.1) (under relative e.1) e.2)

theorem visitAll_eq_map (d : Disk) (ignores : List String) (path relative : String)
    (entries : List (String × Node)) : visitAll d ignores path relative entries =
      entries.map (visited d ignores path relative) := by
  induction entries with
  | nil => rfl
  | cons e entries ih =>
    rw [visitAll, ih, List.map_cons]
    rfl

theorem arrange_visitAll (d : Disk) (ignores : List String) (path : String) {relative : String}
    {entries : List (String × Node)} (hn : (entries.map (·.1)).Nodup)
    (hnames : ∀ e ∈ entries, IsName e.1)
    (hv : ∀ e ∈ entries, Spread (under relative e.1)
      (below (visited d ignores path relative e))) :
    ((arrange ignores path relative (visitAll d ignores path relative entries)).map
        (·.relative)).Nodup ∧
      ∀ c ∈ arrange ignores path relative (visitAll d ignores path relative entries),
        ∃ name, Below relative name c.relative := by
  have hall : ∀ v ∈ visitAll d ignores path relative entries,
      IsName v.1 ∧ Spread (under relative v.1) (below v) := by
    intro v hmem
    rw [visitAll_eq_map] at hmem
    obtain ⟨e, he, rfl⟩ := List.mem_map.1 hmem
    exact ⟨hnames e he, hv e he⟩
  have hvisits : ((visitAll d ignores path relative entries).map (·.1)).Nodup := by
    rw [visitAll_eq_map, List.map_map]
    exact hn
  obtain ⟨hnodup, hbelow⟩ := arrange_spread ignores path hvisits
    (fun v hmem => (hall v hmem).1) fun v hmem => (hall v hmem).2
  refine ⟨hnodup, fun c hc => ?_⟩
  obtain ⟨v, -, hv⟩ := hbelow c hc
  exact ⟨v.1, hv⟩

theorem visit_spread (d : Disk) (ignores : List String) {n : Node} (h : n.Tidy) {name : String}
    (path : String) {relative : String} (hr : relative ≠ "") :
    Spread relative (below (name, visit d ignores path relative n)) := by
  induction h generalizing name path relative with
  | file => exact ⟨by simp [visit, below], by simp [visit, below]⟩
  | link =>
    rw [visit]
    split <;> exact ⟨by simp [below], by simp [below]⟩
  | @folder entries hn hnames htidy ih =>
    rw [visit]
    split
    · exact ⟨by simp [below], by simp [below]⟩
    · obtain ⟨hnodup, hbelow⟩ := arrange_visitAll d ignores path hn hnames fun e he =>
        ih e he _ (under_ne (hnames e he))
      refine ⟨hnodup, fun c hc => ?_⟩
      obtain ⟨name, t, -, e⟩ := hbelow c hc
      rw [toList_under, if_neg hr] at e
      exact ⟨name.toList ++ t, by simp [e]⟩

theorem candidates_nodup (d : Disk) (ignores : List String) (path : String)
    {entries : List (String × Node)} (h : (Node.folder entries).Tidy) :
    ((candidates d ignores path entries).map (·.relative)).Nodup := by
  cases h with
  | folder hn hnames htidy =>
    exact (arrange_visitAll d ignores path hn hnames fun e he =>
      visit_spread d ignores (htidy e he) _ (under_ne (hnames e he))).1

/-! ## What a scan keeps -/

theorem kept_sublist (maxFileSize : Int) (index : Nat) (cs : List Candidate) :
    (((settle maxFileSize index cs).filterMap kept?).map (·.relative)).Sublist
      (cs.map (·.relative)) := by
  induction cs generalizing index with
  | nil => exact .slnil
  | cons c cs ih =>
    rw [settle]
    split
    · exact (ih index).cons _
    · split
      · exact (ih index).cons _
      · exact (ih (index + 1)).cons_cons _

end Scan

theorem Scan.run_eq_ok_iff {site : Site} {target : String} {sel : Selection} {scan : Scan} :
    Scan.run site target sel = .ok scan ↔ ∃ root entries,
      (site.expand target >>= site.resolve) = .ok root ∧
      site.find? root = .ok (some (.folder entries)) ∧
      scan = ⟨root, sel.maxFileSize, settle sel.maxFileSize 0
        ((candidates site.disk sel.ignores root entries).filter fun c =>
          matchesAny sel.includes c.relative)⟩ := by
  unfold Scan.run
  cases hroot : site.expand target >>= site.resolve with
  | error f => simp [Except.mapError, bind, Except.bind]
  | ok root =>
    cases hfind : site.find? root with
    | error f => simp [Except.mapError, bind, Except.bind, hfind]
    | ok found =>
      cases found with
      | none =>
        simp [Except.mapError, bind, Except.bind, hfind, throw, throwThe, MonadExceptOf.throw]
      | some n =>
        cases n <;> simp [Except.mapError, bind, Except.bind, hfind, pure, Except.pure, throw,
          throwThe, MonadExceptOf.throw, eq_comm]

/-- The files that a scan keeps have different paths. -/
theorem Scan.files_nodup {site : Site} (h : site.disk.top.Tidy) {target : String}
    {sel : Selection} {scan : Scan} (e : Scan.run site target sel = .ok scan) :
    (scan.files.map (·.relative)).Nodup := by
  obtain ⟨root, entries, -, hfind, rfl⟩ := Scan.run_eq_ok_iff.1 e
  have hnodup := candidates_nodup site.disk sel.ignores root (Site.find?_tidy h hfind)
  refine List.Sublist.nodup ?_ hnodup
  exact (kept_sublist _ _ _).trans (List.filter_sublist.map _)

end PerfReview
