import PerfReview.Proofs.Disk.Alike

/-!
# What a write changes

`Puts place n d d'` says that `d'` has `n` at a place and is as `d` everywhere else: the same files,
links and folders. Making a folder and writing a file change a file system so. A file that was
written is read back, whatever links its path goes through; the folders made on the way to it leave
every file as it is.
-/

namespace PerfReview

/-- The file system `d'` has `n` at a place and the entries of `d` at every other. -/
structure Disk.Puts (place : List String) (n : Node) (d d' : Disk) : Prop where
  here : d'.top.at? place = some n
  elsewhere : ∀ q, q ≠ place → Option.Rel (Node.Alike False) (d.top.at? q) (d'.top.at? q)

namespace Node

theorem at?_insert_self (new : Node) (parts : List String) (n : Node) :
    (insert new parts n).at? parts = some new := by
  induction parts generalizing n with
  | nil => rw [insert, at?_nil]
  | cons p ps ih =>
    cases n with
    | folder entries => simp only [insert, at?, Assoc.get?_put_self, Option.bind_some, ih]
    | file | link => simp only [insert, at?, Assoc.get?_cons, if_true, Option.bind_some, ih]

/-- A tree is as before outside of what was put into a folder of it. -/
theorem at?_insert_of_not_prefix {new n : Node} {dir q : List String} {name : String}
    {entries : List (String × Node)} (h : n.at? dir = some (.folder entries))
    (hq : ¬(dir ++ [name]) <+: q) :
    Option.Rel (Alike False) (n.at? q) ((insert new (dir ++ [name]) n).at? q) := by
  have hrefl : ∀ k : Option Node, Option.Rel (Alike False) k k := fun k => by
    cases k with
    | none => exact .none
    | some k => exact .some (.refl False k)
  induction dir generalizing n q with
  | nil =>
    rw [at?_nil, Option.some.injEq] at h
    subst h
    cases q with
    | nil => exact .some .folder
    | cons r rs =>
      have hr : name ≠ r := fun e => hq ⟨rs, by rw [e]; rfl⟩
      simp only [List.nil_append, insert, at?, Assoc.get?_put_of_ne _ _ hr]
      exact hrefl _
  | cons p ps ih =>
    cases n with
    | file | link => cases h
    | folder es =>
      obtain ⟨k, hk, h⟩ := Option.bind_eq_some_iff.1 h
      cases q with
      | nil => exact .some .folder
      | cons r rs =>
        simp only [List.cons_append, insert, hk, Option.getD_some, at?]
        by_cases hr : p = r
        · subst hr
          rw [hk, Assoc.get?_put_self]
          exact ih h fun hpre => hq (List.cons_prefix_cons.2 ⟨rfl, hpre⟩)
        · rw [Assoc.get?_put_of_ne _ _ hr]
          exact hrefl _

theorem at?_eq_none_of_leaf {n : Node} (h : n.isFile = true ∨ n = .folder []) {ps : List String}
    (hps : ps ≠ []) : n.at? ps = none := by
  obtain ⟨p, ps, rfl⟩ := List.exists_cons_of_ne_nil hps
  cases n with
  | file | link => rfl
  | folder entries =>
    obtain h | h := h
    · cases h
    · cases h
      rfl

end Node

namespace Disk

variable {d d' : Disk} {place : List String} {n : Node}

/-- What is put into a folder, where nothing or a file is, leaves everything else as it is. -/
theorem puts_insert {dir : List String} {name : String} {entries : List (String × Node)}
    (h : d.top.at? dir = some (.folder entries))
    (hfree : ∀ k, Assoc.get? entries name = some k → k.isFile = true)
    (hn : n.isFile = true ∨ n = .folder []) :
    Puts (dir ++ [name]) n d ⟨Node.insert n (dir ++ [name]) d.top⟩ where
  here := Node.at?_insert_self _ _ _
  elsewhere q hq := by
    by_cases hpre : (dir ++ [name]) <+: q
    · obtain ⟨rest, rfl⟩ := hpre
      have hrest : rest ≠ [] := by
        rintro rfl
        exact hq (List.append_nil _)
      have hbelow : (Assoc.get? entries name).bind (·.at? rest) = none := by
        cases hget : Assoc.get? entries name with
        | none => rfl
        | some k => exact Node.at?_eq_none_of_leaf (.inl (hfree k hget)) hrest
      rw [Node.at?_append, at?_concat h, hbelow, Node.at?_append, Node.at?_insert_self,
        Option.bind_some, Node.at?_eq_none_of_leaf hn hrest]
      exact .none
    · exact Node.at?_insert_of_not_prefix h hpre

theorem puts_file {k : Node} (h : d.top.at? place = some k) (hk : k.isFile = true)
    (hn : n.isFile = true) : Puts place n d ⟨Node.insert n place d.top⟩ := by
  rcases List.eq_nil_or_concat place with rfl | ⟨dir, name, rfl⟩
  · rw [Node.at?_nil, Option.some.injEq] at h
    subst h
    refine ⟨Node.at?_insert_self _ _ _, fun q hq => ?_⟩
    rw [Node.at?_eq_none_of_leaf (.inl hk) hq, Node.insert, Node.at?_eq_none_of_leaf (.inl hn) hq]
    exact .none
  · rw [List.concat_eq_append] at h ⊢
    rw [Node.at?_append] at h
    obtain ⟨above, hdir, habove⟩ := Option.bind_eq_some_iff.1 h
    cases above with
    | file | link => cases habove
    | folder entries =>
      refine puts_insert hdir (fun k' hk' => ?_) (.inl hn)
      rw [← Node.at?_append, at?_concat hdir, hk'] at h
      cases h
      exact hk

/-- Where a path leads there is something, or the path leads to a new entry of a folder. -/
def Leads (d : Disk) (fresh : Option Node) (place : Place) : Prop :=
  d.top.at? place.1 = some place.2 ∨ fresh = some place.2 ∧ ∃ dir name entries,
    place.1 = dir ++ [name] ∧ d.top.at? dir = some (.folder entries) ∧
      Assoc.get? entries name = none

theorem follow_leads {fresh : Option Node}
    {onLink : List String → List String → Except DiskFault Place}
    (hl : ∀ here parts place, onLink here parts = .ok place → d.Leads fresh place)
    {here parts : List String} {place : Place}
    (e : d.follow fresh onLink here parts = .ok place) : d.Leads fresh place := by
  induction parts generalizing here with
  | nil =>
    obtain ⟨n, hn, rfl⟩ := follow_nil_eq_ok_iff.1 e
    exact .inl hn
  | cons p parts ih =>
    obtain ⟨entries, hhere⟩ := exists_folder_of_follow e
    cases step_of_follow e with
    | dot _ e => exact ih e
    | up _ e => exact ih e
    | link _ _ e => exact hl _ _ _ e
    | folder _ _ e => exact ih e
    | file _ hk _ hr =>
      subst hr
      exact .inl hk
    | fresh _ hk _ hfresh hr =>
      subst hr
      exact .inr ⟨hfresh, here, p, entries, rfl, hhere, (at?_concat hhere p).symm.trans hk⟩

theorem followLinks_leads {fresh : Option Node} {links : Nat} {here parts : List String}
    {place : Place} (e : d.followLinks fresh links here parts = .ok place) :
    d.Leads fresh place := by
  induction links generalizing here parts place with
  | zero => exact follow_leads (fun _ _ _ e => by cases e) e
  | succ links ih => exact follow_leads (fun _ _ _ e => ih e) e

theorem write_eq_ok {parts : List String} {bytes : List UInt8} (h : d.write parts bytes = .ok d') :
    ∃ place old mode, d.followLinks (some (.file [] 0o644)) maxLinks [] parts =
        .ok (place, .file old mode) ∧ (∀ k, d.top.at? place = some k → k = .file old mode) ∧
      Puts place (.file bytes mode) d d' := by
  unfold write at h
  split at h
  · cases h
  · rename_i place old mode hfollow
    cases h
    refine ⟨place, old, mode, hfollow, ?_⟩
    obtain hold | ⟨-, dir, name, entries, rfl, hdir, hnone⟩ := followLinks_leads hfollow
    · exact ⟨fun k hk => Option.some.inj (hk.symm.trans hold), puts_file hold rfl rfl⟩
    · refine ⟨fun k hk => ?_, puts_insert hdir (fun k hk => by cases hnone.symm.trans hk) (.inl rfl)⟩
      rw [at?_concat hdir, hnone] at hk
      cases hk
  · cases h

theorem write_isOk {parts : List String} {bytes : List UInt8} (h : d.write parts bytes = .ok d')
    (bytes' : List UInt8) : ∃ d'', d.write parts bytes' = .ok d'' := by
  obtain ⟨place, old, mode, hfollow, -, -⟩ := write_eq_ok h
  unfold write
  rw [hfollow]
  exact ⟨_, rfl⟩

theorem makeFolder_eq_ok {parts : List String} (h : d.makeFolder parts = .ok d') :
    ∃ place, d.top.at? place = none ∧ Puts place (.folder []) d d' := by
  unfold makeFolder at h
  split at h
  · cases h
  · rename_i name _
    split at h
    · cases h
    · rename_i place entries hloc
      split at h
      · cases h
      · split at h
        · cases h
        · split at h
          · cases h
          · rename_i hget
            cases h
            have hhere : d.top.at? place = some (.folder entries) :=
              (followLinks_leads hloc).resolve_right fun h => by cases h.1
            have hnone : Assoc.get? entries name = none := by simpa using hget
            exact ⟨place ++ [name], (at?_concat hhere name).trans hnone,
              puts_insert hhere (fun k hk => by cases hnone.symm.trans hk) (.inr rfl)⟩
    · cases h

/-! ## Reading what was written -/

/-- What is no file at a place that holds files alone lies elsewhere, and is as before. -/
theorem Puts.alike (h : Puts place n d d')
    (hfree : ∀ k, d.top.at? place = some k → k.isFile = true) {q : List String} {k : Node}
    (hq : d.top.at? q = some k) (hk : k.isFile = false) :
    ∃ k', d'.top.at? q = some k' ∧ k.Alike False k' := by
  have hne : q ≠ place := by
    rintro rfl
    rw [hfree k hq] at hk
    cases hk
  obtain ⟨hnone, -⟩ | ⟨k₁, k', hk₁, hk', halike⟩ := rel_cases (h.elsewhere q hne)
  · rw [hnone] at hq
    cases hq
  · rw [hk₁, Option.some.injEq] at hq
    exact ⟨k', hk', hq ▸ halike⟩

/-- A path that leads to a place leads to the file that was put there. -/
theorem Puts.follow (h : Puts place n d d') (hn : n.isFile = true)
    (hfree : ∀ k, d.top.at? place = some k → k.isFile = true) {fresh fresh' : Option Node}
    {onLink onLink' : List String → List String → Except DiskFault Place}
    (hl : ∀ here parts m, onLink here parts = .ok (place, m) →
      onLink' here parts = .ok (place, n))
    {here parts : List String} {m : Node} (e : d.follow fresh onLink here parts = .ok (place, m)) :
    d'.follow fresh' onLink' here parts = .ok (place, n) := by
  obtain ⟨bytes, mode, rfl⟩ : ∃ bytes mode, n = .file bytes mode := by
    cases n with
    | file bytes mode => exact ⟨bytes, mode, rfl⟩
    | folder | link => cases hn
  induction parts generalizing here with
  | nil =>
    obtain ⟨k, -, hplace⟩ := follow_nil_eq_ok_iff.1 e
    cases hplace
    exact follow_nil_eq_ok_iff.2 ⟨_, h.here, rfl⟩
  | cons p parts ih =>
    obtain ⟨entries, hhere⟩ := exists_folder_of_follow e
    obtain ⟨_, hhere', ⟨⟩⟩ := h.alike hfree hhere rfl
    refine Step.follow hhere' ?_
    cases step_of_follow e with
    | dot hdot e => exact .dot hdot (ih e)
    | up hup e => exact .up hup (ih e)
    | link hp hk e =>
      obtain ⟨_, hk', ⟨⟩⟩ := h.alike hfree hk rfl
      exact .link hp hk' (hl _ _ _ e)
    | folder hp hk e =>
      obtain ⟨_, hk', ⟨⟩⟩ := h.alike hfree hk rfl
      exact .folder hp hk' (ih e)
    | file hp _ hparts hr =>
      cases hr
      exact .file hp h.here hparts rfl
    | fresh hp _ hparts _ hr =>
      cases hr
      exact .file hp h.here hparts rfl

theorem Puts.followLinks (h : Puts place n d d') (hn : n.isFile = true)
    (hfree : ∀ k, d.top.at? place = some k → k.isFile = true) {fresh fresh' : Option Node}
    {links : Nat} {here parts : List String} {m : Node}
    (e : d.followLinks fresh links here parts = .ok (place, m)) :
    d'.followLinks fresh' links here parts = .ok (place, n) := by
  induction links generalizing here parts m with
  | zero => exact h.follow hn hfree (fun _ _ _ e => by cases e) e
  | succ links ih => exact h.follow hn hfree (fun _ _ _ e => ih e) e

theorem locate_of_write {parts : List String} {bytes : List UInt8}
    (h : d.write parts bytes = .ok d') : ∃ place mode,
      d'.locate parts = .ok (place, .file bytes mode) ∧ Puts place (.file bytes mode) d d' := by
  obtain ⟨place, old, mode, hfollow, hplace, hputs⟩ := write_eq_ok h
  exact ⟨place, mode, hputs.followLinks rfl (fun k hk => hplace k hk ▸ rfl) hfollow, hputs⟩

theorem locate_setMode {parts : List String} {bytes : List UInt8} {mode : Nat}
    (h : d.locate parts = .ok (place, .file bytes mode)) (mode' : Nat) :
    (d.setMode parts mode').locate parts = .ok (place, .file bytes mode') := by
  have hold : d.top.at? place = some (.file bytes mode) :=
    (followLinks_leads h).resolve_right fun h => by cases h.1
  unfold setMode
  rw [h]
  exact (puts_file hold rfl rfl).followLinks rfl (fun k hk => by cases hold.symm.trans hk; rfl) h

/-! ## The files that stay -/

/-- The files of `d'` are those of `d`, one place aside. -/
def SameFiles (aside : List String → Prop) (d d' : Disk) : Prop :=
  ∀ q, ¬aside q → ∀ bytes mode,
    d'.top.at? q = some (.file bytes mode) ↔ d.top.at? q = some (.file bytes mode)

theorem SameFiles.refl (aside : List String → Prop) (d : Disk) : SameFiles aside d d :=
  fun _ _ _ _ => Iff.rfl

theorem SameFiles.trans {aside : List String → Prop} {d'' : Disk} (h : SameFiles aside d d')
    (h' : SameFiles aside d' d'') : SameFiles aside d d'' :=
  fun q hq bytes mode => (h' q hq bytes mode).trans (h q hq bytes mode)

instance (aside : List String → Prop) : IsPreorder Disk (SameFiles aside) where
  refl := .refl aside
  trans _ _ _ h h' := h.trans h'

theorem SameFiles.mono {aside aside' : List String → Prop} (h : SameFiles aside d d')
    (ha : ∀ q, aside q → aside' q) : SameFiles aside' d d' :=
  fun q hq => h q fun e => hq (ha q e)

theorem Puts.sameFiles (h : Puts place n d d') : SameFiles (· = place) d d' := by
  intro q hq bytes mode
  obtain ⟨hk, hk'⟩ | ⟨k, k', hk, hk', halike⟩ := rel_cases (h.elsewhere q hq)
  · rw [hk, hk']
  · rw [hk, hk']
    cases halike with
    | file e => rw [e.resolve_left id]
    | folder | link => simp

theorem sameFiles_of_makeFolder {parts : List String} (h : d.makeFolder parts = .ok d')
    (aside : List String → Prop) : SameFiles aside d d' := by
  obtain ⟨place, hnone, hputs⟩ := makeFolder_eq_ok h
  intro q _ bytes mode
  by_cases hq : q = place
  · subst hq
    simp [hputs.here, hnone]
  · exact hputs.sameFiles q hq bytes mode

end Disk

end PerfReview
