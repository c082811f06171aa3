import Mathlib.Algebra.GroupWithZero.Nat
import PerfReview.Proofs.Disk.Tidy

/-!
# File systems that look alike

Two trees look alike when they hold the same names, links lead the same way, and files differ at
most in their bytes, at the places that `free` tells. A path leads to the same place in both, so
whatever asks for an entry without reading it cannot tell them apart.
-/

namespace PerfReview

/-- Two entries of one place, which is free if the bytes of a file there may differ. -/
inductive Node.Alike (free : Prop) : Node → Node → Prop where
  | file {bytes bytes' : List UInt8} {mode : Nat} : free ∨ bytes = bytes' →
      Alike free (.file bytes mode) (.file bytes' mode)
  | folder {entries entries' : List (String × Node)} :
      Alike free (.folder entries) (.folder entries')
  | link {target : String} : Alike free (.link target) (.link target)

/-- The entries at every place of two trees are alike. -/
def Node.LooksLike (free : List String → Prop) (n n' : Node) : Prop :=
  ∀ parts, Option.Rel (Node.Alike (free parts)) (n.at? parts) (n'.at? parts)

/-- Two tidy file systems look alike. -/
structure Disk.Alike (free : List String → Prop) (d d' : Disk) : Prop where
  tidy : d.top.Tidy
  tidy' : d'.top.Tidy
  looks : d.top.LooksLike free d'.top

theorem rel_cases {α β : Type} {r : α → β → Prop} {a : Option α} {b : Option β}
    (h : Option.Rel r a b) :
    (a = none ∧ b = none) ∨ ∃ x y, a = some x ∧ b = some y ∧ r x y := by
  cases h with
  | none => exact .inl ⟨rfl, rfl⟩
  | some h => exact .inr ⟨_, _, rfl, rfl, h⟩

namespace Node

variable {n n' : Node} {entries entries' : List (String × Node)} {free : List String → Prop}

/-! ## Entries -/

theorem Alike.symm {free : Prop} (h : n.Alike free n') : n'.Alike free n := by
  cases h with
  | file h => exact .file (h.imp_right Eq.symm)
  | folder => exact .folder
  | link => exact .link

theorem Alike.trans {free : Prop} {n'' : Node} (h : n.Alike free n') (h' : n'.Alike free n'') :
    n.Alike free n'' := by
  cases h with
  | file h =>
    cases h' with
    | file h' =>
      by_cases hf : free
      · exact .file (.inl hf)
      · exact .file (.inr ((h.resolve_left hf).trans (h'.resolve_left hf)))
  | folder =>
    cases h'
    exact .folder
  | link => exact h'

theorem Alike.isFolder {free : Prop} (h : n.Alike free n') : n'.isFolder = n.isFolder := by
  cases h <;> rfl

theorem Alike.isFile {free : Prop} (h : n.Alike free n') : n'.isFile = n.isFile := by
  cases h <;> rfl

theorem LooksLike.symm (h : n.LooksLike free n') : n'.LooksLike free n := by
  intro parts
  obtain ⟨hn, hn'⟩ | ⟨k, k', hn, hn', halike⟩ := rel_cases (h parts)
  · rw [hn, hn']
    exact .none
  · rw [hn, hn']
    exact .some halike.symm

theorem LooksLike.alike (h : n.LooksLike free n') : n.Alike (free []) n' := by
  have hnil := h []
  rwa [at?_nil, at?_nil, Option.rel_some_some] at hnil

/-- Folders that look alike hold entries of the same names, and these look alike. -/
theorem LooksLike.get? (h : (folder entries).LooksLike free (folder entries')) (name : String) :
    Option.Rel (LooksLike fun parts => free (name :: parts)) (Assoc.get? entries name)
      (Assoc.get? entries' name) := by
  have hname : ∀ parts, Option.Rel (Alike (free (name :: parts)))
      ((Assoc.get? entries name).bind (·.at? parts))
      ((Assoc.get? entries' name).bind (·.at? parts)) := fun parts => h (name :: parts)
  generalize Assoc.get? entries name = k, Assoc.get? entries' name = k' at hname
  cases k with
  | none =>
    cases k' with
    | none => exact .none
    | some k' => nomatch at?_nil k' ▸ hname []
  | some k =>
    cases k' with
    | none => nomatch at?_nil k ▸ hname []
    | some k' => exact .some hname

/-! ## Other bytes in a file -/

theorem Alike.refl (free : Prop) (n : Node) : n.Alike free n := by
  cases n with
  | file => exact .file (.inr rfl)
  | folder => exact .folder
  | link => exact .link

theorem LooksLike.refl (free : List String → Prop) (n : Node) : n.LooksLike free n := by
  intro parts
  cases n.at? parts with
  | none => exact .none
  | some k => exact .some (.refl _ k)

theorem Alike.mono {free free' : Prop} (h : n.Alike free n') (hf : free → free') :
    n.Alike free' n' := by
  cases h with
  | file h => exact .file (h.imp_left hf)
  | folder => exact .folder
  | link => exact .link

theorem LooksLike.mono {free' : List String → Prop} (h : n.LooksLike free n')
    (hf : ∀ parts, free parts → free' parts) : n.LooksLike free' n' := by
  intro parts
  obtain ⟨hn, hn'⟩ | ⟨k, k', hn, hn', halike⟩ := rel_cases (h parts)
  · rw [hn, hn']
    exact .none
  · rw [hn, hn']
    exact .some (halike.mono (hf parts))

/-- A tree looks as before when a file in it gets other bytes. -/
theorem LooksLike.insert {parts : List String} {bytes : List UInt8} {mode : Nat}
    (h : n.at? parts = some (.file bytes mode)) (bytes' : List UInt8) :
    n.LooksLike (· = parts) (Node.insert (.file bytes' mode) parts n) := by
  induction parts generalizing n with
  | nil =>
    rw [at?_nil, Option.some.injEq] at h
    subst h
    rintro (_ | ⟨q, qs⟩)
    · exact .some (.file (.inl rfl))
    · exact .none
  | cons p ps ih =>
    cases n with
    | file => cases h
    | link => cases h
    | folder entries =>
      obtain ⟨k, hk, h⟩ := Option.bind_eq_some_iff.1 h
      simp only [Node.insert, hk, Option.getD_some]
      rintro (_ | ⟨q, qs⟩)
      · exact .some .folder
      · simp only [at?]
        by_cases hq : p = q
        · subst hq
          rw [hk, Assoc.get?_put_self]
          exact (ih h).mono (fun _ e => congrArg (p :: ·) e) qs
        · rw [Assoc.get?_put_of_ne _ _ hq]
          cases Assoc.get? entries q with
          | none => exact .none
          | some k' => exact LooksLike.refl (fun qs => q :: qs = p :: ps) k' qs

/-! ## Counting links -/

theorem linkCounts_eq_sum (entries : List (String × Node)) :
    linkCounts entries = (entries.map fun e => e.2.linkCount).sum := by
  induction entries with
  | nil => rfl
  | cons e entries ih => rw [linkCounts, ih, List.map_cons, List.sum_cons]

theorem at?_ne_link (h : n.linkCount = 0) (parts : List String) (target : String) :
    n.at? parts ≠ some (.link target) := by
  induction parts generalizing n with
  | nil =>
    rw [at?_nil]
    rintro ⟨⟩
    cases h
  | cons p ps ih =>
    cases n with
    | file => exact nofun
    | link => exact nofun
    | folder entries =>
      intro e
      obtain ⟨k, hk, e⟩ := Option.bind_eq_some_iff.1 e
      rw [linkCount, linkCounts_eq_sum, List.sum_eq_zero_iff_forall_eq_nat] at h
      have hmem := Assoc.mem_of_get?_eq_some hk
      exact ih (h _ (List.mem_map.2 ⟨_, hmem, rfl⟩)) e

theorem linkCount_folder (h : (entries.map (·.1)).Nodup) :
    (folder entries).linkCount = ((entries.map (·.1)).map fun name =>
      ((Assoc.get? entries name).map linkCount).getD 0).sum := by
  rw [linkCount, linkCounts_eq_sum, List.map_map]
  refine congrArg List.sum (List.map_congr_left fun e he => ?_)
  have hget : Assoc.get? entries e.1 = some e.2 := (Assoc.get?_eq_some_iff h).2 he
  simp [hget]

theorem LooksLike.names_perm (h : (folder entries).LooksLike free (folder entries'))
    (hn : (entries.map (·.1)).Nodup) (hn' : (entries'.map (·.1)).Nodup) :
    (entries'.map (·.1)).Perm (entries.map (·.1)) := by
  refine (List.perm_ext_iff_of_nodup hn' hn).2 fun name => ?_
  rw [← Assoc.get?_isSome_iff, ← Assoc.get?_isSome_iff]
  obtain ⟨hk, hk'⟩ | ⟨k, k', hk, hk', -⟩ := rel_cases (h.get? name)
  · rw [hk, hk']
  · rw [hk, hk']
    exact Iff.rfl

theorem LooksLike.linkCount_eq (h : n.LooksLike free n') (ht : n.Tidy) (ht' : n'.Tidy) :
    n'.linkCount = n.linkCount := by
  induction ht generalizing n' free with
  | file => cases h.alike; rfl
  | link => cases h.alike; rfl
  | @folder entries hn hnames htidy ih =>
    cases n' with
    | file => nomatch h.alike
    | link => nomatch h.alike
    | folder entries' =>
      have hn' : (entries'.map (·.1)).Nodup := by cases ht' with | folder hn' => exact hn'
      have hcount : ∀ name, (Assoc.get? entries' name).map linkCount =
          (Assoc.get? entries name).map linkCount := by
        intro name
        obtain ⟨hk, hk'⟩ | ⟨k, k', hk, hk', hlooks⟩ := rel_cases (h.get? name)
        · rw [hk, hk']
        · rw [hk, hk']
          exact congrArg some (ih _ (Assoc.mem_of_get?_eq_some hk) hlooks (ht'.get? hk'))
      -- the names may stand in another order in the other folder
      rw [linkCount_folder hn, linkCount_folder hn', ((h.names_perm hn hn').map _).sum_nat]
      simp only [hcount]

end Node

/-! ## Following paths -/

namespace Disk

variable {d d' : Disk} {free : List String → Prop}

theorem Alike.symm (h : d.Alike free d') : d'.Alike free d := ⟨h.tidy', h.tidy, h.looks.symm⟩

theorem Alike.alike (h : d.Alike free d') {parts : List String} {n n' : Node}
    (hn : d.top.at? parts = some n) (hn' : d'.top.at? parts = some n') :
    n.Alike (free parts) n' := by
  have hrel := h.looks parts
  rwa [hn, hn', Option.rel_some_some] at hrel

/-- Where one file system has an entry the other has one like it. -/
theorem Alike.exists_at? (h : d.Alike free d') {parts : List String} {n : Node}
    (hn : d.top.at? parts = some n) :
    ∃ n', d'.top.at? parts = some n' ∧ n.Alike (free parts) n' := by
  have hrel := h.looks parts
  rw [hn] at hrel
  cases hn' : d'.top.at? parts with
  | none => rw [hn'] at hrel; cases hrel
  | some n' => rw [hn', Option.rel_some_some] at hrel; exact ⟨n', rfl, hrel⟩

theorem Alike.mono {free' : List String → Prop} (h : d.Alike free d')
    (hf : ∀ parts, free parts → free' parts) : d.Alike free' d' :=
  ⟨h.tidy, h.tidy', h.looks.mono hf⟩

theorem place_alike (h : d.top.Tidy) {path : String} {bytes : List UInt8} {mode : Nat}
    (e : d.top.at? (Path.parts path) = some (.file bytes mode)) (bytes' : List UInt8) :
    d.Alike (· = Path.parts path) (d.place path (.file bytes' mode)) :=
  ⟨h, place_tidy h path .file, .insert e bytes'⟩

/-- Two ways that fail alike or lead to one place. -/
inductive Meet (d d' : Disk) : Except DiskFault Place → Except DiskFault Place → Prop where
  | place {parts : List String} {n n' : Node} : d.top.at? parts = some n →
      d'.top.at? parts = some n' → Meet d d' (.ok (parts, n)) (.ok (parts, n'))
  | fault {f : DiskFault} : Meet d d' (.error f) (.error f)

theorem Alike.follow_entry (h : d.Alike free d')
    {onLink onLink' : List String → List String → Except DiskFault Place}
    (hl : ∀ here parts, Meet d d' (onLink here parts) (onLink' here parts))
    {here parts : List String} {p : String} {entries entries' : List (String × Node)}
    (hhere : d.top.at? here = some (.folder entries))
    (hhere' : d'.top.at? here = some (.folder entries'))
    (hp : NamesEntry p)
    (ih : Meet d d' (d.follow none onLink (here ++ [p]) parts)
      (d'.follow none onLink' (here ++ [p]) parts)) :
    Meet d d' (d.follow none onLink here (p :: parts))
      (d'.follow none onLink' here (p :: parts)) := by
  have hget := at?_concat hhere p
  have hget' := at?_concat hhere' p
  obtain ⟨hk, hk'⟩ | ⟨k, k', hk, hk', halike⟩ := rel_cases (h.looks (here ++ [p]))
  · simp only [Disk.follow, hhere, hhere', if_neg hp.1, if_neg hp.2.1, if_neg hp.2.2, ← hget,
      ← hget', hk, hk']
    cases parts <;> exact .fault
  · simp only [Disk.follow, hhere, hhere', if_neg hp.1, if_neg hp.2.1, if_neg hp.2.2, ← hget,
      ← hget', hk, hk']
    cases halike with
    | file =>
      cases parts with
      | nil => exact .place hk hk'
      | cons => exact .fault
    | folder => exact ih
    | link => exact hl _ _

theorem Alike.follow (h : d.Alike free d')
    {onLink onLink' : List String → List String → Except DiskFault Place}
    (hl : ∀ here parts, Meet d d' (onLink here parts) (onLink' here parts))
    (here parts : List String) :
    Meet d d' (d.follow none onLink here parts) (d'.follow none onLink' here parts) := by
  induction parts generalizing here with
  | nil =>
    obtain ⟨hn, hn'⟩ | ⟨n, n', hn, hn', -⟩ := rel_cases (h.looks here)
    · simp only [Disk.follow, hn, hn']
      exact .fault
    · simp only [Disk.follow, hn, hn']
      exact .place hn hn'
  | cons p ps ih =>
    obtain ⟨hn, hn'⟩ | ⟨n, n', hn, hn', halike⟩ := rel_cases (h.looks here)
    · simp only [Disk.follow, hn, hn']
      exact .fault
    · cases halike with
      | file =>
        simp only [Disk.follow, hn, hn']
        exact .fault
      | link =>
        simp only [Disk.follow, hn, hn']
        exact .fault
      | folder =>
        -- one dot stays here, two go up, and any other name that is short enough is looked for
        by_cases hdot : p = "."
        · simp only [Disk.follow, hn, hn', if_pos hdot]
          exact ih here
        by_cases hup : p = ".."
        · simp only [Disk.follow, hn, hn', if_neg hdot, if_pos hup]
          exact ih here.dropLast
        by_cases hlong : maxName < p.utf8ByteSize
        · simp only [Disk.follow, hn, hn', if_neg hdot, if_neg hup, if_pos hlong]
          exact .fault
        exact h.follow_entry hl hn hn' ⟨hdot, hup, hlong⟩ (ih _)

theorem Alike.followLinks (h : d.Alike free d') (links : Nat) (here parts : List String) :
    Meet d d' (d.followLinks none links here parts) (d'.followLinks none links here parts) := by
  induction links generalizing here parts with
  | zero => exact h.follow (fun _ _ => .fault) here parts
  | succ links ih => exact h.follow ih here parts

theorem Alike.locate (h : d.Alike free d') (parts : List String) :
    Meet d d' (d.locate parts) (d'.locate parts) := h.followLinks maxLinks [] parts

theorem Alike.settle (h : d.Alike free d')
    (onLink : List String → String → List String × Bool) (here parts : List String) :
    d'.settle onLink here parts = d.settle onLink here parts := by
  induction parts generalizing here with
  | nil => rfl
  | cons p ps ih =>
    have hentry := h.looks (here ++ [p])
    simp only [Disk.settle, ih]
    obtain ⟨hn, hn'⟩ | ⟨n, n', hn, hn', halike⟩ := rel_cases hentry
    · rw [hn, hn']
    · rw [hn, hn']
      cases halike <;> rfl

theorem Alike.settleLinks (h : d.Alike free d') (fuel : Nat) (opened : List (List String)) :
    d'.settleLinks fuel opened = d.settleLinks fuel opened := by
  induction fuel generalizing opened with
  | zero => rfl
  | succ fuel ih =>
    funext here parts
    simp only [Disk.settleLinks, ih, h.settle]

theorem Alike.resolve (h : d.Alike free d') (parts : List String) :
    d'.resolve parts = d.resolve parts := by
  rw [Disk.resolve, Disk.resolve, h.settleLinks, h.looks.linkCount_eq h.tidy h.tidy']

end Disk

/-! ## Paths in their place -/

namespace Site

variable {s : Site} {d' : Disk} {free : List String → Prop}

/-- A path fails alike in both file systems, or leads to entries of one place. -/
theorem locate_on (h : s.disk.Alike free d') (path : String) :
    (∃ f, s.locate path = .error f ∧ (s.on d').locate path = .error f) ∨
    ∃ parts n n', s.locate path = .ok (parts, n) ∧ (s.on d').locate path = .ok (parts, n') ∧
      s.disk.top.at? parts = some n ∧ d'.top.at? parts = some n' ∧ n.Alike (free parts) n' := by
  have hmeet : Disk.Meet s.disk d' (s.disk.locate (Path.parts (s.absolute path)))
      ((s.on d').disk.locate (Path.parts ((s.on d').absolute path))) := h.locate _
  simp only [locate, bind, Except.bind]
  cases Path.check path with
  | error f => exact .inl ⟨f, rfl, rfl⟩
  | ok =>
    by_cases hlong : Path.maxLength ≤ path.utf8ByteSize
    · simp only [if_pos hlong]
      exact .inl ⟨_, rfl, rfl⟩
    · simp only [if_neg hlong]
      generalize s.disk.locate _ = r, (s.on d').disk.locate _ = r' at hmeet
      cases hmeet with
      | fault => exact .inl ⟨_, rfl, rfl⟩
      | place hn hn' => exact .inr ⟨_, _, _, rfl, rfl, hn, hn', h.alike hn hn'⟩

/-- What is asked of an entry without reading it is answered alike. -/
theorem find?_on (h : s.disk.Alike free d') (path : String) {β : Type} (ask : Option Node → β)
    (hask : ∀ parts n n', n.Alike (free parts) n' → ask (some n') = ask (some n)) :
    ((s.on d').find? path).map ask = (s.find? path).map ask := by
  unfold find?
  obtain ⟨f, hf, hf'⟩ | ⟨parts, n, n', hn, hn', -, -, halike⟩ := locate_on h path
  · rw [hf, hf']
  · rw [hn, hn']
    exact congrArg Except.ok (hask parts n n' halike)

theorem hasFolder_on (h : s.disk.Alike free d') (path : String) :
    (s.on d').hasFolder path = s.hasFolder path :=
  find?_on h path _ fun _ _ _ halike => halike.isFolder

theorem hasFile_on (h : s.disk.Alike free d') (path : String) :
    (s.on d').hasFile path = s.hasFile path :=
  find?_on h path _ fun _ _ _ halike => halike.isFile

theorem has_on (h : s.disk.Alike free d') (path : String) :
    (s.on d').has path = s.has path := find?_on h path _ fun _ _ _ _ => rfl

theorem resolve_on (h : s.disk.Alike free d') (path : String) :
    (s.on d').resolve path = s.resolve path := by
  have hresolve : (s.on d').disk.resolve (Path.parts ((s.on d').absolute path)) =
    s.disk.resolve (Path.parts (s.absolute path)) := h.resolve _
  rw [resolve, resolve, hresolve]
  dsimp only
  generalize s.disk.resolve (Path.parts (s.absolute path)) = parts
  have hmeet : Disk.Meet s.disk d' (s.disk.locate parts) ((s.on d').disk.locate parts) := h.locate _
  cases Path.check path with
  | error f => rfl
  | ok =>
    generalize s.disk.locate parts = r, (s.on d').disk.locate parts = r' at hmeet
    cases hmeet <;> rfl

theorem readText_on {path : String} (h : (s.on d').read path = s.read path) :
    (s.on d').readText path = s.readText path := by rw [readText, readText, h]

end Site

end PerfReview
