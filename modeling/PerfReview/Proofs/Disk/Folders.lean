import PerfReview.Proofs.Disk.Home
import PerfReview.Proofs.Disk.Texts

/-!
# Folders on the way to a file

`Way d onLink here parts r` says how the parts of a path lead from a folder to an entry, part by part.
The way to an entry goes through a folder, and it stays open when folders are made or files written:
`d.Extends aside d'` says that `d'` has every entry of `d`, though files that are set aside may have
other bytes there. Where the folders on the way to a path cannot be made, the path leads to no file
afterwards, unless nothing has changed at all.
-/

namespace PerfReview

namespace Disk

variable {d d' d'' : Disk} {place here parts : List String} {n : Node} {r : Place}
  {onLink onLink' : List String → List String → Except DiskFault Place}

/-! ## Ways -/

/-- How the parts of a path lead from the folder `here` to an entry; `onLink` takes over at a link. -/
inductive Way (d : Disk) (onLink : List String → List String → Except DiskFault Place) :
    List String → List String → Place → Prop where
  | arrived {here : List String} {n : Node} : d.top.at? here = some n → Way d onLink here [] (here, n)
  | dot {here parts : List String} {r : Place} {entries : List (String × Node)} :
      d.top.at? here = some (.folder entries) → Way d onLink here parts r →
      Way d onLink here ("." :: parts) r
  | up {here parts : List String} {r : Place} {entries : List (String × Node)} :
      d.top.at? here = some (.folder entries) → Way d onLink here.dropLast parts r →
      Way d onLink here (".." :: parts) r
  | link {here parts : List String} {r : Place} {p target : String}
      {entries : List (String × Node)} :
      d.top.at? here = some (.folder entries) → NamesEntry p →
      d.top.at? (here ++ [p]) = some (.link target) →
      onLink (if Path.isAbsolute target then [] else here) (Path.steps target ++ parts) = .ok r →
      Way d onLink here (p :: parts) r
  | entry {here parts : List String} {r : Place} {p : String} {n : Node}
      {entries : List (String × Node)} :
      d.top.at? here = some (.folder entries) → NamesEntry p →
      d.top.at? (here ++ [p]) = some n → (∀ target, n ≠ .link target) →
      Way d onLink (here ++ [p]) parts r → Way d onLink here (p :: parts) r

theorem way_of_follow (e : d.follow none onLink here parts = .ok r) : Way d onLink here parts r := by
  induction parts generalizing here with
  | nil =>
    obtain ⟨n, hn, rfl⟩ := follow_nil_eq_ok_iff.1 e
    exact .arrived hn
  | cons p parts ih =>
    obtain ⟨entries, hhere⟩ := exists_folder_of_follow e
    cases step_of_follow e with
    | dot hdot e => exact hdot ▸ .dot hhere (ih e)
    | up hup e => exact hup ▸ .up hhere (ih e)
    | link hp hk e => exact .link hhere hp hk e
    | folder hp hk e => exact .entry hhere hp hk (by simp) (ih e)
    | file hp hk hparts hr =>
      subst hparts hr
      exact .entry hhere hp hk (by simp) (.arrived hk)
    | fresh _ _ _ hfresh => cases hfresh

theorem Way.follow (h : Way d onLink here parts r) : d.follow none onLink here parts = .ok r := by
  induction h with
  | arrived hn => exact follow_nil_eq_ok_iff.2 ⟨_, hn, rfl⟩
  | dot hhere _ ih => exact Step.follow hhere (.dot rfl ih)
  | up hhere _ ih => exact Step.follow hhere (.up rfl ih)
  | link hhere hp hget hl => exact Step.follow hhere (.link hp hget hl)
  | @entry here parts r p n entries hhere hp hget hn hway ih =>
    refine Step.follow hhere ?_
    cases n with
    | link target => exact absurd rfl (hn target)
    | folder => exact .folder hp hget ih
    | file bytes mode =>
      -- nothing follows a file
      cases hway with
      | arrived hn' =>
        cases hget.symm.trans hn'
        exact .file hp hget rfl rfl
      | dot hfile | up hfile | link hfile | entry hfile => cases hget.symm.trans hfile

/-- What leads somewhere with further parts leads to a folder without them. -/
theorem Way.dropFurther {further : List String} (hfurther : further ≠ [])
    (hl : ∀ here parts r, onLink here (parts ++ further) = .ok r →
      ∃ place entries, onLink here parts = .ok (place, .folder entries))
    (h : Way d onLink here (parts ++ further) r) :
    ∃ place entries, Way d onLink here parts (place, .folder entries) := by
  induction parts generalizing here with
  | nil =>
    cases h with
    | arrived => exact absurd rfl hfurther
    | dot hhere | up hhere | link hhere | entry hhere => exact ⟨_, _, .arrived hhere⟩
  | cons p parts ih =>
    rw [List.cons_append] at h
    cases h with
    | dot hhere h =>
      obtain ⟨place, entries, h⟩ := ih h
      exact ⟨place, entries, .dot hhere h⟩
    | up hhere h =>
      obtain ⟨place, entries, h⟩ := ih h
      exact ⟨place, entries, .up hhere h⟩
    | link hhere hp hget e =>
      rw [← List.append_assoc] at e
      obtain ⟨place, entries, e⟩ := hl _ _ _ e
      exact ⟨place, entries, .link hhere hp hget e⟩
    | entry hhere hp hget hn h =>
      obtain ⟨place, entries, h⟩ := ih h
      exact ⟨place, entries, .entry hhere hp hget hn h⟩

theorem followLinks_dropFurther {further : List String} (hfurther : further ≠ []) {links : Nat}
    (e : d.followLinks none links here (parts ++ further) = .ok r) :
    ∃ place entries, d.followLinks none links here parts = .ok (place, .folder entries) := by
  induction links generalizing here parts r with
  | zero =>
    obtain ⟨place, entries, h⟩ :=
      (way_of_follow e).dropFurther hfurther fun _ _ _ e => by cases e
    exact ⟨place, entries, h.follow⟩
  | succ links ih =>
    obtain ⟨place, entries, h⟩ :=
      (way_of_follow e).dropFurther hfurther fun here parts r e => @ih here parts r e
    exact ⟨place, entries, h.follow⟩

theorem locate_dropLast (hne : parts ≠ []) (e : d.locate parts = .ok r) :
    ∃ place entries, d.locate parts.dropLast = .ok (place, .folder entries) := by
  rw [← List.dropLast_concat_getLast hne] at e
  exact followLinks_dropFurther (List.cons_ne_nil _ _) e

theorem puts_self (h : d.top.at? place = some n) : Puts place n d d := by
  refine ⟨h, fun q _ => ?_⟩
  cases d.top.at? q with
  | none => exact .none
  | some k => exact .some (.refl _ k)

theorem write_of_locate {bytes : List UInt8} {mode : Nat}
    (e : d.locate parts = .ok (place, .file bytes mode)) (bytes' : List UInt8) :
    ∃ d', d.write parts bytes' = .ok d' := by
  have hhere : d.top.at? place = some (.file bytes mode) :=
    (followLinks_leads e).resolve_right fun h => by cases h.1
  have hfollow : d.followLinks (some (.file [] 0o644)) maxLinks [] parts =
      .ok (place, .file bytes mode) :=
    (puts_self hhere).followLinks rfl (fun k hk => by cases hhere.symm.trans hk; rfl) e
  unfold write
  rw [hfollow]
  exact ⟨_, rfl⟩

/-! ## More entries -/

variable {aside : List String → Prop}

/-- Every entry of the first file system is in the second, as it is but for the bytes of the files
that are set aside. -/
def Extends (aside : List String → Prop) (d d' : Disk) : Prop :=
  ∀ q n, d.top.at? q = some n → ∃ n', d'.top.at? q = some n' ∧ n.Alike (aside q) n'

theorem Extends.refl (aside : List String → Prop) (d : Disk) : d.Extends aside d :=
  fun _ n hn => ⟨n, hn, .refl _ n⟩

theorem Extends.trans (h : d.Extends aside d') (h' : d'.Extends aside d'') :
    d.Extends aside d'' := by
  intro q n hn
  obtain ⟨n', hn', halike⟩ := h q n hn
  obtain ⟨n'', hn'', halike'⟩ := h' q n' hn'
  exact ⟨n'', hn'', halike.trans halike'⟩

theorem Extends.mono {aside' : List String → Prop} (h : d.Extends aside d')
    (ha : ∀ q, aside q → aside' q) : d.Extends aside' d' := by
  intro q n hn
  obtain ⟨n', hn', halike⟩ := h q n hn
  exact ⟨n', hn', halike.mono (ha q)⟩

/-- What is put where nothing is, or another file, takes nothing else away. -/
theorem Puts.extends (h : Puts place n d d')
    (hplace : ∀ k, d.top.at? place = some k → k.Alike (aside place) n) : d.Extends aside d' := by
  intro q k hk
  by_cases hq : q = place
  · subst hq
    exact ⟨n, h.here, hplace k hk⟩
  · obtain ⟨hk', -⟩ | ⟨k₁, k', hk₁, hk', halike⟩ := rel_cases (h.elsewhere q hq)
    · cases hk'.symm.trans hk
    · cases hk₁.symm.trans hk
      exact ⟨k', hk', halike.mono False.elim⟩

theorem extends_of_makeFolder (h : d.makeFolder parts = .ok d') : d.Extends aside d' := by
  obtain ⟨place, hnone, hputs⟩ := makeFolder_eq_ok h
  exact hputs.extends fun k hk => by cases hnone.symm.trans hk

theorem Extends.way (h : d.Extends aside d')
    (hl : ∀ here parts place n, onLink here parts = .ok (place, n) →
      ∃ n', onLink' here parts = .ok (place, n') ∧ n.Alike (aside place) n')
    (hway : Way d onLink here parts r) :
    ∃ n', Way d' onLink' here parts (r.1, n') ∧ r.2.Alike (aside r.1) n' := by
  induction hway with
  | arrived hn =>
    obtain ⟨n', hn', halike⟩ := h _ _ hn
    exact ⟨n', .arrived hn', halike⟩
  | dot hhere _ ih =>
    obtain ⟨_, hhere', ⟨⟩⟩ := h _ _ hhere
    obtain ⟨n', hn', halike⟩ := ih
    exact ⟨n', .dot hhere' hn', halike⟩
  | up hhere _ ih =>
    obtain ⟨_, hhere', ⟨⟩⟩ := h _ _ hhere
    obtain ⟨n', hn', halike⟩ := ih
    exact ⟨n', .up hhere' hn', halike⟩
  | link hhere hp hget e =>
    obtain ⟨_, hhere', ⟨⟩⟩ := h _ _ hhere
    obtain ⟨_, hget', ⟨⟩⟩ := h _ _ hget
    obtain ⟨n', hn', halike⟩ := hl _ _ _ _ e
    exact ⟨n', .link hhere' hp hget' hn', halike⟩
  | entry hhere hp hget hlink _ ih =>
    obtain ⟨_, hhere', ⟨⟩⟩ := h _ _ hhere
    obtain ⟨k, hget', hk⟩ := h _ _ hget
    obtain ⟨n', hn', halike⟩ := ih
    refine ⟨n', .entry hhere' hp hget' ?_ hn', halike⟩
    rintro target rfl
    cases hk
    exact hlink target rfl

theorem Extends.followLinks (h : d.Extends aside d') {links : Nat}
    (e : d.followLinks none links here parts = .ok (place, n)) :
    ∃ n', d'.followLinks none links here parts = .ok (place, n') ∧ n.Alike (aside place) n' := by
  induction links generalizing here parts place n with
  | zero =>
    obtain ⟨n', hn', halike⟩ := h.way (fun _ _ _ _ e => by cases e) (way_of_follow e)
    exact ⟨n', hn'.follow, halike⟩
  | succ links ih =>
    obtain ⟨n', hn', halike⟩ := h.way (fun _ _ _ _ e => ih e) (way_of_follow e)
    exact ⟨n', hn'.follow, halike⟩

/-- A path that leads to a file leads to it when there is more, unless the file is set aside. -/
theorem Extends.locate_file (h : d.Extends aside d') {bytes : List UInt8} {mode : Nat}
    (e : d.locate parts = .ok (place, .file bytes mode)) (hplace : ¬aside place) :
    d'.locate parts = .ok (place, .file bytes mode) := by
  obtain ⟨n', hn', halike⟩ := h.followLinks e
  cases halike with
  | file he =>
    cases he.resolve_left hplace
    exact hn'

instance (aside : List String → Prop) : IsPreorder Disk (Extends aside) where
  refl := .refl aside
  trans _ _ _ h h' := h.trans h'

/-- A written file is all that a write changes. Its path led to it before, if it was there. -/
theorem extends_of_write {bytes : List UInt8} (h : d.write parts bytes = .ok d') :
    ∃ place mode, d'.locate parts = .ok (place, .file bytes mode) ∧ d.Extends (· = place) d' ∧
      SameFiles (· = place) d d' ∧ ∀ old mode', d.top.at? place = some (.file old mode') →
        d.locate parts = .ok (place, .file old mode') := by
  obtain ⟨place, old, mode, hfollow, hplace, hputs⟩ := write_eq_ok h
  have hfree : ∀ k, d.top.at? place = some k → k.isFile = true := fun k hk => hplace k hk ▸ rfl
  refine ⟨place, mode, hputs.followLinks rfl hfree hfollow, hputs.extends fun k hk => ?_,
    hputs.sameFiles, fun old' mode' hold => (puts_self hold).followLinks rfl hfree hfollow⟩
  rw [hplace k hk]
  exact .file (.inl rfl)

/-- Where a folder is missing on the way to a path, the path leads nowhere. -/
theorem locate_ne_of_makeFolder (h : d.makeFolder parts = .error .missing) :
    ∀ r, d.locate parts ≠ .ok r := by
  intro r e
  unfold makeFolder at h
  split at h
  · cases h
  · rename_i name hlast
    have hne : parts ≠ [] := by
      rintro rfl
      cases hlast
    obtain ⟨place, entries, hfolder⟩ := locate_dropLast hne e
    rw [hfolder] at h
    dsimp only at h
    split at h
    · cases h
    · split at h
      · cases h
      · split at h <;> cases h

end Disk

namespace Path

theorem isAbsolute_iff {p : String} : isAbsolute p = true ↔ anchor p ≠ "" := by
  refine ⟨Site.anchor_ne_of_isAbsolute, fun h => ?_⟩
  unfold anchor at h
  unfold isAbsolute
  split at h <;> simp_all

end Path

namespace Site

variable {s : Site} {d d' : Disk} {path anchor : String} {names : List String} {f : PathFault}

theorem parts_absolute (s : Site) (path : String) : Path.parts (s.absolute path) =
    (if Path.isAbsolute path then [] else Path.parts s.working) ++ Path.parts path := by
  unfold absolute Path.join
  split
  · rw [Path.parts_normal, List.nil_append]
  · refine Path.parts_build (Path.isAnchor_anchor _) fun p hp => ?_
    rcases List.mem_append.1 hp with hp | hp <;> exact Path.isPart_of_mem_parts hp

theorem parts_absolute_parent (hne : Path.parts path ≠ []) :
    (Path.parts (s.absolute path)).dropLast = Path.parts (s.absolute (Path.parent path)) := by
  have hanchor := Path.isAnchor_anchor path
  have hparts : ∀ p ∈ (Path.parts path).dropLast, Path.IsPart p := fun p hp =>
    Path.isPart_of_mem_parts (List.dropLast_subset _ hp)
  have habsolute : Path.isAbsolute (Path.parent path) = Path.isAbsolute path := by
    rw [Bool.eq_iff_iff, Path.isAbsolute_iff, Path.isAbsolute_iff, Path.parent,
      Path.anchor_build hanchor hparts]
  rw [parts_absolute, parts_absolute, habsolute, List.dropLast_append_of_ne_nil hne, Path.parent,
    Path.parts_build hanchor hparts]

theorem locate_parent {r : Disk.Place} (hne : Path.parts path ≠ [])
    (h : d.locate (Path.parts (s.absolute path)) = .ok r) : ∃ place entries,
      d.locate (Path.parts (s.absolute (Path.parent path))) = .ok (place, .folder entries) := by
  rw [← parts_absolute_parent hne]
  refine Disk.locate_dropLast ?_ h
  rw [parts_absolute]
  exact List.append_ne_nil_of_right_ne_nil _ hne

/-! ## Files stay where they are read -/

theorem read_eq_ok {bytes : List UInt8} : s.read path = .ok bytes ↔ admits path = .ok () ∧
    ∃ place mode, s.disk.locate (Path.parts (s.absolute path)) = .ok (place, .file bytes mode) := by
  unfold read
  rw [locate_eq]
  cases admits path with
  | error f => simp [bind, Except.bind]
  | ok =>
    simp only [true_and]
    rcases s.disk.locate (Path.parts (s.absolute path)) with f | ⟨place, n⟩
    · simp [bind, Except.bind, Except.mapError]
    · cases n <;> simp [bind, Except.bind, Except.mapError, pure, Except.pure, throw, throwThe,
        MonadExceptOf.throw]

/-- Making folders takes no file from its path. -/
theorem read_of_makeFolders {other : String} {bytes : List UInt8}
    (h : (s.on d).read path = .ok bytes) :
    (s.on ((s.makeFolders other).run d).2).read path = .ok bytes := by
  obtain ⟨hadmits, place, mode, hloc⟩ := read_eq_ok.1 h
  have hextends := makeFolders_within (R := Disk.Extends fun _ => False)
    Disk.extends_of_makeFolder s other d
  exact read_eq_ok.2 ⟨hadmits, place, mode, hextends.locate_file hloc id⟩

theorem write_of_read {bytes : List UInt8} (h : (s.on d).read path = .ok bytes)
    (bytes' : List UInt8) : ∃ d', (s.write path bytes').run d = (.ok (), d') := by
  obtain ⟨hadmits, place, mode, hloc⟩ := read_eq_ok.1 h
  obtain ⟨d', hwrite⟩ := Disk.write_of_locate hloc bytes'
  refine ⟨d', ?_⟩
  have hwrite' : d.write (Path.parts (s.absolute path)) bytes' = .ok d' := hwrite
  rw [run_write, hadmits, hwrite']

/-! ## Folders that cannot be made -/

theorem hasFolder_of_locate {entries : List (String × Node)} {place : List String}
    (hadmits : admits path = .ok ())
    (h : s.disk.locate (Path.parts (s.absolute path)) = .ok (place, .folder entries)) :
    s.hasFolder path = .ok true := by
  rw [hasFolder, find?, locate_eq, hadmits, h]
  rfl

/-- What a fault of making a folder comes to: nothing, where the folder is there and no other one is
missing. -/
def afterFault (s : Site) (path : String) : PathFault → Except PathFault Unit
  | .disk .missing p => .error (.disk .missing p)
  | .disk f p => s.hasFolder path >>= fun found => if found then .ok () else .error (.disk f p)
  | f => .error f

theorem run_ensureFolder {g : PathFault} (h : (s.makeFolder path).run d = (.error g, d)) :
    (s.ensureFolder path).run d = ((s.on d).afterFault path g, d) := by
  unfold ensureFolder
  rw [Change.run_tryCatch, h]
  cases g with
  | disk f p =>
    have hcheck : ExceptT.run (do
        let d₁ ← get
        let found ← liftM ((s.on d₁).hasFolder path)
        if !found then throw (.disk f p) : Change PathFault Unit) d =
      ((s.on d).hasFolder path >>= fun found => if found then .ok () else .error (.disk f p), d) := by
      rw [Change.run_bind]
      show ExceptT.run (liftM ((s.on d).hasFolder path) >>= fun found =>
        if !found then throw (.disk f p) else pure () : Change PathFault Unit) d = _
      rw [Change.run_bind, Change.run_lift]
      rcases (s.on d).hasFolder path with g | found
      · rfl
      · cases found <;> rfl
    cases f with
    | missing => rfl
    | _ => exact hcheck
  | _ => rfl

/-- A path that the file system is not asked for has a fault of its text, or is too long. -/
theorem admits_eq_error (h : admits path = .error f) :
    f = .nul ∨ (∃ u, f = .surrogates u) ∨ f = .disk .nameTooLong path := by
  unfold admits Path.check at h
  split at h
  · cases h
    exact .inr (.inl ⟨_, rfl⟩)
  · split at h
    · cases h
      exact .inl rfl
    · by_cases hlong : Path.maxLength ≤ path.utf8ByteSize
      · simp only [bind, Except.bind, if_pos hlong] at h
        cases h
        exact .inr (.inr rfl)
      · simp only [bind, Except.bind, if_neg hlong] at h
        cases h

theorem afterFault_of_admits (h : admits path = .error f) : s.afterFault path f = .error f := by
  obtain rfl | ⟨u, rfl⟩ | rfl := admits_eq_error h
  · rfl
  · rfl
  · have hlong : s.hasFolder path = .error (.disk .nameTooLong path) := by
      rw [hasFolder, find?, locate_eq, h]
      rfl
    rw [afterFault, hlong]
    · rfl
    · exact nofun

theorem ensureFolder_fails (h : (s.ensureFolder path).run d = (.error f, d')) : d' = d ∧
    (admits path = .error f ∨ admits path = .ok () ∧ ∀ place entries,
      d.locate (Path.parts (s.absolute path)) ≠ .ok (place, .folder entries)) := by
  have hmake := run_makeFolder s path d
  cases hadmits : admits path with
  | error g =>
    rw [hadmits] at hmake
    rw [run_ensureFolder hmake, afterFault_of_admits hadmits] at h
    cases h
    exact ⟨rfl, .inl rfl⟩
  | ok =>
    rw [hadmits] at hmake
    dsimp only at hmake
    cases hmissing : d.makeFolder (Path.parts (s.absolute path)) with
    | ok d₁ =>
      rw [hmissing] at hmake
      unfold ensureFolder at h
      rw [Change.run_tryCatch, hmake] at h
      cases h
    | error g =>
      rw [hmissing] at hmake
      rw [run_ensureFolder hmake] at h
      refine ⟨(Prod.mk.inj h).2.symm, .inr ⟨rfl, fun place entries hloc => ?_⟩⟩
      have hthere : (s.on d).hasFolder path = .ok true := hasFolder_of_locate hadmits hloc
      cases g with
      | missing => exact Disk.locate_ne_of_makeFolder hmissing _ hloc
      | _ =>
        rw [afterFault, hthere] at h
        · cases h
        · exact nofun

/-- Where folders cannot be made there is no folder, unless nothing has changed. -/
theorem makeFoldersUp_fails (hanchor : Path.IsAnchor anchor) (hnames : ∀ p ∈ names, Path.IsPart p)
    (h : (s.makeFoldersUp anchor names).run d = (.error f, d')) : d' = d ∨ ∀ place entries,
      d'.locate (Path.parts (s.absolute (Path.build anchor names.reverse))) ≠
        .ok (place, .folder entries) := by
  induction names generalizing d d' f with
  | nil => exact .inl (ensureFolder_fails h).1
  | cons name above ih =>
    have hpath : ∀ p ∈ (name :: above).reverse, Path.IsPart p := fun p hp =>
      hnames p (List.mem_reverse.1 hp)
    unfold makeFoldersUp at h
    rw [Change.run_tryCatch] at h
    rcases hfirst : (s.ensureFolder (Path.build anchor (name :: above).reverse)).run d
      with ⟨g | u, d₁⟩
    · obtain ⟨rfl, hnone⟩ := ensureFolder_fails hfirst
      rw [hfirst] at h
      dsimp only at h
      split at h
      · -- a folder above is missing: either it cannot be made, or it is and the rest fails again
        rw [Change.run_bind] at h
        have hadmits := (hnone.resolve_left fun he => by
          obtain e | ⟨u, e⟩ | e := admits_eq_error he <;> cases e).1
        rcases habove : (s.makeFoldersUp anchor above).run d₁ with ⟨g | u, d₂⟩
        · rw [habove] at h
          cases h
          refine (ih (List.forall_mem_cons.1 hnames).2 habove).imp_right fun hno place entries hloc => ?_
          have hne : Path.parts (Path.build anchor (name :: above).reverse) ≠ [] := by
            rw [Path.parts_build hanchor hpath]
            simp
          have hparent : Path.parent (Path.build anchor (name :: above).reverse) =
              Path.build anchor above.reverse := by
            rw [Path.parent, Path.anchor_build hanchor hpath, Path.parts_build hanchor hpath,
              List.reverse_cons, List.dropLast_concat]
          obtain ⟨place', entries', hloc'⟩ := locate_parent hne hloc
          rw [hparent] at hloc'
          exact hno place' entries' hloc'
        · rw [habove] at h
          obtain ⟨rfl, hno⟩ := ensureFolder_fails h
          refine .inr ((hno.resolve_left fun he => ?_).2)
          cases hadmits.symm.trans he
      · cases h
        exact .inl rfl
    · rw [hfirst] at h
      cases h

/-- Where the folders on the way to a path cannot be made, the path leads to no file, unless nothing
has changed. -/
theorem read_of_makeFolders_fails
    (h : (s.makeFolders (Path.parent path)).run d = (.error f, d')) :
    d' = d ∨ ∀ bytes, (s.on d').read path ≠ .ok bytes := by
  have hanchor := Path.isAnchor_anchor path
  have hparts : ∀ p ∈ (Path.parts path).dropLast, Path.IsPart p := fun p hp =>
    Path.isPart_of_mem_parts (List.dropLast_subset _ hp)
  unfold makeFolders Path.parent at h
  rw [Path.anchor_build hanchor hparts, Path.parts_build hanchor hparts] at h
  by_cases hne : Path.parts path = []
  · rw [hne] at h
    exact .inl (ensureFolder_fails h).1
  · refine (makeFoldersUp_fails hanchor (fun p hp => hparts p (List.mem_reverse.1 hp)) h).imp_right
      fun hno bytes hread => ?_
    obtain ⟨-, place, mode, hloc⟩ := read_eq_ok.1 hread
    obtain ⟨place', entries, hloc'⟩ := locate_parent hne hloc
    rw [List.reverse_reverse] at hno
    exact hno place' entries hloc'

/-! ## Writing where files are read -/

theorem write_fails {bytes : List UInt8} (h : (s.write path bytes).run d = (.error f, d')) :
    d' = d := by
  rw [run_write] at h
  split at h
  · cases h
    rfl
  · split at h
    · cases h
      rfl
    · cases h

theorem read_of_writeText {text : String} {bytes : List UInt8}
    (ht : Text.encodeStrict text = .ok bytes)
    (h : (s.writeText path text).run d = (.ok (), d')) : (s.on d').read path = .ok bytes := by
  obtain ⟨d₁, -, hwrite⟩ := (writeText_eq_ok_iff ht).1 h
  obtain ⟨place, mode, hloc, -⟩ := write_eq_ok hwrite
  unfold read
  rw [hloc]
  rfl

theorem read_of_writeText_fails {text : String} {bytes : List UInt8}
    {e : PathFault ⊕ Text.Unwritable} (ht : Text.encodeStrict text = .ok bytes)
    (h : (s.writeText path text).run d = (.error e, d')) (bytes' : List UInt8) :
    (s.on d').read path = .ok bytes' ↔ (s.on d).read path = .ok bytes' := by
  have hkeeps : (s.on d).read path = .ok bytes' →
      (s.on ((s.makeFolders (Path.parent path)).run d).2).read path = .ok bytes' :=
    fun hread => read_of_makeFolders hread
  obtain ⟨f, hfolders | ⟨d₁, hfolders, hwrite⟩⟩ := fails_of_writeText ht h
  · rw [hfolders] at hkeeps
    refine ⟨fun hread => ?_, hkeeps⟩
    obtain rfl | hno := read_of_makeFolders_fails hfolders
    · exact hread
    · exact absurd hread (hno bytes')
  · rw [hfolders] at hkeeps
    obtain rfl := write_fails hwrite
    -- a file that is read could have been written
    have hno : (s.on d').read path ≠ .ok bytes' := fun hread => by
      obtain ⟨d₂, hwrite'⟩ := write_of_read hread bytes
      cases hwrite.symm.trans hwrite'
    exact iff_of_false hno fun hread => hno (hkeeps hread)

theorem read_setMode {bytes : List UInt8} (h : (s.on d).read path = .ok bytes) (mode : Nat) :
    (s.on (d.setMode (Path.parts (s.absolute path)) mode)).read path = .ok bytes := by
  obtain ⟨hadmits, place, mode', hloc⟩ := read_eq_ok.1 h
  exact read_eq_ok.2 ⟨hadmits, place, mode, Disk.locate_setMode hloc mode⟩

end Site

end PerfReview
