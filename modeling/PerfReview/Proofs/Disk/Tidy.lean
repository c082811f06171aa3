import PerfReview.Proofs.Assoc
import PerfReview.Proofs.Disk.Steps
import PerfReview.Proofs.Text.Cut
import PerfReview.Site

/-!
# Tidy file systems

In a tidy file system the entries of a folder have different names, none of them empty or with a
slash in it. A disk to which entries are added by their paths stays tidy, and what a path leads to
in a tidy disk is tidy.
-/

namespace PerfReview

/-- A text that can name an entry of a folder. -/
def IsName (s : String) : Prop := s ≠ "" ∧ '/' ∉ s.toList

/-- The entries of every folder have names, and different ones. -/
inductive Node.Tidy : Node → Prop where
  | file {bytes : List UInt8} {mode : Nat} : Tidy (.file bytes mode)
  | link {target : String} : Tidy (.link target)
  | folder {entries : List (String × Node)} : (entries.map (·.1)).Nodup →
      (∀ e ∈ entries, IsName e.1) → (∀ e ∈ entries, e.2.Tidy) → Tidy (.folder entries)

/-! ## Adding entries -/

theorem Node.tidy_nil : (Node.folder []).Tidy :=
  .folder List.nodup_nil (by simp) (by simp)

theorem Node.Tidy.get? {entries : List (String × Node)} {name : String} {n : Node}
    (h : (Node.folder entries).Tidy) (e : Assoc.get? entries name = some n) : n.Tidy := by
  cases h with
  | folder _ _ htidy => exact htidy _ (Assoc.mem_of_get?_eq_some e)

theorem Node.Tidy.put {entries : List (String × Node)} {name : String} {n : Node}
    (h : (Node.folder entries).Tidy) (hname : IsName name) (hn : n.Tidy) :
    (Node.folder (Assoc.put name n entries)).Tidy := by
  cases h with
  | folder hnodup hnames htidy =>
    refine .folder (Assoc.nodup_keys_put hnodup) (fun e he => ?_) fun e he => ?_
    · rcases Assoc.mem_put he with rfl | he
      · exact hname
      · exact hnames e he
    · rcases Assoc.mem_put he with rfl | he
      · exact hn
      · exact htidy e he

theorem Node.Tidy.insert {new n : Node} {parts : List String} (hnew : new.Tidy)
    (hparts : ∀ p ∈ parts, IsName p) (h : n.Tidy) : (Node.insert new parts n).Tidy := by
  induction parts generalizing n with
  | nil => exact hnew
  | cons p parts ih =>
    obtain ⟨hp, hparts⟩ := List.forall_mem_cons.1 hparts
    have hsingle : (Node.folder [(p, Node.insert new parts (.folder []))]).Tidy :=
      Node.tidy_nil.put hp (ih hparts Node.tidy_nil)
    cases n with
    | file => exact hsingle
    | link => exact hsingle
    | folder entries =>
      refine h.put hp (ih hparts ?_)
      cases e : Assoc.get? entries p with
      | none => exact Node.tidy_nil
      | some n' => exact h.get? e

theorem Path.isName_of_mem_parts {path p : String} (h : p ∈ Path.parts path) : IsName p := by
  obtain ⟨hmem, hp⟩ := List.mem_filter.1 h
  obtain ⟨l, hl, rfl⟩ := List.mem_map.1 hmem
  refine ⟨fun e => by simp [e] at hp, ?_⟩
  rw [String.toList_ofList]
  exact Text.notMem_splitOn '/' path.toList l hl

theorem Disk.place_tidy {d : Disk} (h : d.top.Tidy) (path : String) {n : Node} (hn : n.Tidy) :
    (d.place path n).top.Tidy :=
  hn.insert (fun _ hp => Path.isName_of_mem_parts hp) h

/-! ## Following paths -/

theorem Node.Tidy.at? {n m : Node} {parts : List String} (h : n.Tidy)
    (e : n.at? parts = some m) : m.Tidy := by
  induction parts generalizing n with
  | nil =>
    cases n <;> cases e <;> exact h
  | cons p parts ih =>
    cases n with
    | file => cases e
    | link => cases e
    | folder entries =>
      obtain ⟨k, hk, e⟩ := Option.bind_eq_some_iff.1 e
      exact ih (h.get? hk) e

theorem Node.Tidy.isName_of_at? {n m : Node} {parts : List String} (h : n.Tidy)
    (e : n.at? parts = some m) : ∀ p ∈ parts, IsName p := by
  induction parts generalizing n with
  | nil => exact fun _ hp => absurd hp List.not_mem_nil
  | cons p parts ih =>
    cases h with
    | file => cases e
    | link => cases e
    | folder hn hnames htidy =>
      obtain ⟨k, hk, e⟩ := Option.bind_eq_some_iff.1 e
      have hmem := Assoc.mem_of_get?_eq_some hk
      exact List.forall_mem_cons.2 ⟨hnames _ hmem, ih (htidy _ hmem) e⟩

namespace Disk

theorem follow_tidy {d : Disk} (h : d.top.Tidy)
    {onLink : List String → List String → Except DiskFault Place}
    (hl : ∀ here parts place, onLink here parts = .ok place → place.2.Tidy)
    {here parts : List String} {place : Place} (e : d.follow none onLink here parts = .ok place) :
    place.2.Tidy := by
  induction parts generalizing here with
  | nil =>
    obtain ⟨n, hn, rfl⟩ := follow_nil_eq_ok_iff.1 e
    exact h.at? hn
  | cons p parts ih =>
    cases step_of_follow e with
    | dot _ e => exact ih e
    | up _ e => exact ih e
    | link _ _ e => exact hl _ _ _ e
    | folder _ _ e => exact ih e
    | file _ _ _ hr => exact hr ▸ .file
    | fresh _ _ _ hfresh => cases hfresh

theorem followLinks_tidy {d : Disk} (h : d.top.Tidy) {links : Nat} {here parts : List String}
    {place : Place} (e : d.followLinks none links here parts = .ok place) : place.2.Tidy := by
  induction links generalizing here parts place with
  | zero => exact follow_tidy h (fun _ _ _ e => by cases e) e
  | succ links ih => exact follow_tidy h (fun _ _ _ e => ih e) e

end Disk

theorem Site.find?_tidy {s : Site} (h : s.disk.top.Tidy) {path : String} {n : Node}
    (e : s.find? path = .ok (some n)) : n.Tidy := by
  unfold Site.find? at e
  split at e
  · rename_i place n' hloc
    cases e
    unfold Site.locate at hloc
    simp only [bind, Except.bind] at hloc
    split at hloc
    · cases hloc
    · split at hloc
      · cases hloc
      · cases hl : s.disk.locate (Path.parts (s.absolute path)) with
        | error f => rw [hl] at hloc; cases hloc
        | ok place' =>
          rw [hl] at hloc
          cases hloc
          exact Disk.followLinks_tidy h hl
  · cases e
  · cases e

end PerfReview
