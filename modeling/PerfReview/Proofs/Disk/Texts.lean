import PerfReview.Proofs.Disk.Writing

/-!
# Writing text files

A text file is written in three steps: the folders on the way to it are made, its text is taken to
bytes, and these are written. The folders leave every file as it is. Whether the file can be written
depends on its path alone, and the text has no part in it but that it must have bytes.
-/

namespace PerfReview

open Disk (SameFiles)

namespace Change

variable {ε ε' α β : Type}

theorem run_bind (c : Change ε α) (f : α → Change ε β) (d : Disk) :
    (c >>= f).run d =
      match c.run d with
      | (.ok a, d') => (f a).run d'
      | (.error e, d') => (.error e, d') := by
  show ExceptT.bindCont f (c.run d).1 (c.run d).2 = _
  rcases c.run d with ⟨_ | a, d'⟩ <;> rfl

theorem run_tryCatch (c : Change ε α) (handle : ε → Change ε α) (d : Disk) :
    (tryCatch c handle).run d =
      match c.run d with
      | (.ok a, d') => (.ok a, d')
      | (.error e, d') => (handle e).run d' := by
  show (match (c.run d).1 with
    | .ok a => pure (.ok a)
    | .error e => handle e : StateM Disk (Except ε α)) (c.run d).2 = _
  rcases c.run d with ⟨_ | a, d'⟩ <;> rfl

theorem run_lift (x : Except ε α) (d : Disk) : (liftM x : Change ε α).run d = (x, d) := by
  cases x <;> rfl

theorem run_get (d : Disk) : (get : Change ε Disk).run d = (.ok d, d) := rfl

theorem run_pure (a : α) (d : Disk) : (pure a : Change ε α).run d = (.ok a, d) := rfl

theorem run_adapt (c : Change ε α) (f : ε → ε') (d : Disk) :
    (c.adapt f).run d = ((c.run d).1.mapError f, (c.run d).2) := rfl

/-- The change leaves every file as it is, whether or not it goes through. -/
def Keeps (c : Change ε α) : Prop := ∀ d, SameFiles (fun _ => False) d (c.run d).2

/-- The file system after the change is in a relation to that before, whether or not the change goes
through. -/
def Within (R : Disk → Disk → Prop) (c : Change ε α) : Prop := ∀ d, R d (c.run d).2

section

variable {R : Disk → Disk → Prop} [IsPreorder Disk R]

theorem within_pure (a : α) : Within R (pure a : Change ε α) := refl_of R

theorem within_throw (e : ε) : Within R (throw e : Change ε α) := refl_of R

theorem within_lift (x : Except ε α) : Within R (liftM x : Change ε α) := by
  intro d
  cases x <;> exact refl_of R d

theorem within_get : Within R (get : Change ε Disk) := refl_of R

theorem Within.bind {c : Change ε α} {f : α → Change ε β} (hc : c.Within R)
    (hf : ∀ a, (f a).Within R) : Within R (c >>= f) := by
  intro d
  have h := hc d
  rw [run_bind]
  rcases hr : c.run d with ⟨e | a, d'⟩ <;> rw [hr] at h
  · exact h
  · exact trans_of R h (hf a d')

theorem Within.tryCatch {c : Change ε α} {handle : ε → Change ε α} (hc : c.Within R)
    (hh : ∀ e, (handle e).Within R) : Within R (tryCatch c handle) := by
  intro d
  have h := hc d
  rw [run_tryCatch]
  rcases hr : c.run d with ⟨e | a, d'⟩ <;> rw [hr] at h
  · exact trans_of R h (hh e d')
  · exact h

end

end Change

open Change

namespace Site

/-- What is asked of a path before the file system is. -/
def admits (path : String) : Except PathFault Unit := do
  Path.check path
  if Path.maxLength ≤ path.utf8ByteSize then throw (.disk .nameTooLong path)

/-- A change that the file system makes at a path. -/
def changing (path : String) (change : Disk → Except DiskFault Disk) : Change PathFault Unit := do
  Path.check path
  if Path.maxLength ≤ path.utf8ByteSize then throw (.disk .nameTooLong path)
  match change (← get) with
  | .error f => throw (.disk f path)
  | .ok disk => set disk

theorem run_changing (path : String) (change : Disk → Except DiskFault Disk) (d : Disk) :
    (changing path change).run d =
      match admits path with
      | .error f => (.error f, d)
      | .ok () =>
        match change d with
        | .error f => (.error (.disk f path), d)
        | .ok d' => (.ok (), d') := by
  unfold changing admits
  cases Path.check path with
  | error f => rfl
  | ok u =>
    by_cases hlong : Path.maxLength ≤ path.utf8ByteSize
    · simp only [bind, Except.bind, if_pos hlong]
      rfl
    · simp only [bind, Except.bind, if_neg hlong]
      show ExceptT.run (match change d with
        | .error f => throw (.disk f path)
        | .ok disk => set disk : Change PathFault Unit) d = _
      cases change d <;> rfl

theorem run_makeFolder (s : Site) (path : String) (d : Disk) :
    (s.makeFolder path).run d =
      match admits path with
      | .error f => (.error f, d)
      | .ok () =>
        match d.makeFolder (Path.parts (s.absolute path)) with
        | .error f => (.error (.disk f path), d)
        | .ok d' => (.ok (), d') :=
  run_changing path (·.makeFolder (Path.parts (s.absolute path))) d

theorem run_write (s : Site) (path : String) (bytes : List UInt8) (d : Disk) :
    (s.write path bytes).run d =
      match admits path with
      | .error f => (.error f, d)
      | .ok () =>
        match d.write (Path.parts (s.absolute path)) bytes with
        | .error f => (.error (.disk f path), d)
        | .ok d' => (.ok (), d') :=
  run_changing path (·.write (Path.parts (s.absolute path)) bytes) d

theorem locate_eq (s : Site) (path : String) :
    s.locate path =
      match admits path with
      | .error f => .error f
      | .ok () => (s.disk.locate (Path.parts (s.absolute path))).mapError (.disk · path) := by
  unfold locate admits
  cases Path.check path with
  | error f => rfl
  | ok u =>
    by_cases hlong : Path.maxLength ≤ path.utf8ByteSize
    · simp only [bind, Except.bind, if_pos hlong]
      rfl
    · simp only [bind, Except.bind, if_neg hlong]
      rfl

theorem locate_eq_ok {s : Site} {path : String} {r : Disk.Place} : s.locate path = .ok r ↔
    admits path = .ok () ∧ s.disk.locate (Path.parts (s.absolute path)) = .ok r := by
  rw [locate_eq]
  cases admits path with
  | error f => simp
  | ok =>
    simp only [true_and]
    cases s.disk.locate (Path.parts (s.absolute path)) <;> simp [Except.mapError]

/-! ## Folders -/

section

variable {R : Disk → Disk → Prop} [IsPreorder Disk R]

theorem makeFolder_within (hR : ∀ {d d' parts}, Disk.makeFolder d parts = .ok d' → R d d')
    (s : Site) (path : String) : (s.makeFolder path).Within R := by
  intro d
  rw [run_makeFolder]
  cases admits path with
  | error f => exact refl_of R d
  | ok =>
    cases h : d.makeFolder (Path.parts (s.absolute path)) with
    | error f => exact refl_of R d
    | ok d' => exact hR h

theorem ensureFolder_within (hR : ∀ {d d' parts}, Disk.makeFolder d parts = .ok d' → R d d')
    (s : Site) (path : String) : (s.ensureFolder path).Within R := by
  refine (makeFolder_within hR s path).tryCatch fun e => ?_
  split
  · exact within_throw _
  · refine within_get.bind fun d => (within_lift _).bind fun found => ?_
    split
    · exact within_throw _
    · exact within_pure ()
  · exact within_throw _

theorem makeFoldersUp_within (hR : ∀ {d d' parts}, Disk.makeFolder d parts = .ok d' → R d d')
    (s : Site) (anchor : String) (names : List String) :
    (s.makeFoldersUp anchor names).Within R := by
  induction names with
  | nil => exact ensureFolder_within hR s _
  | cons name above ih =>
    refine (ensureFolder_within hR s _).tryCatch fun e => ?_
    split
    · exact ih.bind fun _ => ensureFolder_within hR s _
    · exact within_throw _

/-- Making the folders on the way to a path changes the file system as making one folder does. -/
theorem makeFolders_within (hR : ∀ {d d' parts}, Disk.makeFolder d parts = .ok d' → R d d')
    (s : Site) (path : String) : (s.makeFolders path).Within R :=
  makeFoldersUp_within hR s _ _

end

theorem makeFolders_keeps (s : Site) (path : String) : (s.makeFolders path).Keeps :=
  makeFolders_within (fun h => Disk.sameFiles_of_makeFolder h _) s path

/-! ## Files -/

theorem write_eq_ok {s : Site} {path : String} {bytes : List UInt8} {d d' : Disk}
    (h : (s.write path bytes).run d = (.ok (), d')) : ∃ place mode,
      (s.on d').locate path = .ok (place, .file bytes mode) ∧
        SameFiles (· = place) d d' := by
  rw [run_write] at h
  split at h
  · cases h
  · rename_i hadmits
    split at h
    · cases h
    · rename_i hwrite
      cases h
      obtain ⟨place, mode, hloc, hputs⟩ := Disk.locate_of_write hwrite
      exact ⟨place, mode, locate_eq_ok.2 ⟨hadmits, hloc⟩, hputs.sameFiles⟩

theorem write_isOk {s : Site} {path : String} {bytes : List UInt8} {d d' : Disk}
    (h : (s.write path bytes).run d = (.ok (), d')) (bytes' : List UInt8) :
    ∃ d'', (s.write path bytes').run d = (.ok (), d'') := by
  rw [run_write] at h ⊢
  split at h
  · cases h
  · split at h
    · cases h
    · rename_i hwrite
      obtain ⟨d'', hwrite'⟩ := Disk.write_isOk hwrite bytes'
      exact ⟨d'', by rw [hwrite']⟩

theorem run_writeText (s : Site) (path text : String) (d : Disk) :
    (s.writeText path text).run d =
      match (s.makeFolders (Path.parent path)).run d with
      | (.error f, d₁) => (.error (.inl f), d₁)
      | (.ok (), d₁) =>
        match Text.encodeStrict text with
        | .ok bytes =>
          (((s.write path bytes).run d₁).1.mapError .inl, ((s.write path bytes).run d₁).2)
        | .error u =>
          match (s.write path []).run d₁ with
          | (.error f, d₂) => (.error (.inl f), d₂)
          | (.ok (), d₂) => (.error (.inr u), d₂) := by
  unfold writeText
  rw [run_bind, run_adapt]
  rcases (s.makeFolders (Path.parent path)).run d with ⟨_ | _, d₁⟩
  · rfl
  · cases Text.encodeStrict text with
    | ok bytes => rfl
    | error u =>
      show ExceptT.run ((s.write path []).adapt Sum.inl >>= fun _ => throw (Sum.inr u) :
        Change (PathFault ⊕ Text.Unwritable) Unit) d₁ = match (s.write path []).run d₁ with
          | (.error f, d₂) => (.error (.inl f), d₂)
          | (.ok (), d₂) => (.error (.inr u), d₂)
      rw [run_bind, run_adapt]
      rcases (s.write path []).run d₁ with ⟨_ | _, d₂⟩ <;> rfl

theorem writeText_eq_ok_iff {s : Site} {path text : String} {bytes : List UInt8} {d d' : Disk}
    (ht : Text.encodeStrict text = .ok bytes) :
    (s.writeText path text).run d = (.ok (), d') ↔
      ∃ d₁, (s.makeFolders (Path.parent path)).run d = (.ok (), d₁) ∧
        (s.write path bytes).run d₁ = (.ok (), d') := by
  rw [run_writeText, ht]
  constructor
  · intro h
    rcases hfolders : (s.makeFolders (Path.parent path)).run d with ⟨f | u, d₁⟩
    · rw [hfolders] at h
      cases h
    · rw [hfolders] at h
      dsimp only at h
      rcases hwrite : (s.write path bytes).run d₁ with ⟨f | u, d₂⟩
      · rw [hwrite] at h
        cases h
      · rw [hwrite] at h
        cases h
        exact ⟨d₁, rfl, hwrite⟩
  · rintro ⟨d₁, hfolders, hwrite⟩
    rw [hfolders]
    simp only [hwrite]
    rfl

/-- A text that has bytes is not written if a folder on its way cannot be made, or the file cannot
be written. -/
theorem fails_of_writeText {s : Site} {path text : String} {bytes : List UInt8} {d d' : Disk}
    {e : PathFault ⊕ Text.Unwritable} (ht : Text.encodeStrict text = .ok bytes)
    (h : (s.writeText path text).run d = (.error e, d')) :
    ∃ f, (s.makeFolders (Path.parent path)).run d = (.error f, d') ∨
      ∃ d₁, (s.makeFolders (Path.parent path)).run d = (.ok (), d₁) ∧
        (s.write path bytes).run d₁ = (.error f, d') := by
  rw [run_writeText, ht] at h
  rcases hfolders : (s.makeFolders (Path.parent path)).run d with ⟨f | u, d₁⟩
  · rw [hfolders] at h
    cases h
    exact ⟨f, .inl rfl⟩
  · rw [hfolders] at h
    dsimp only at h
    rcases hwrite : (s.write path bytes).run d₁ with ⟨f | u, d₂⟩
    · rw [hwrite] at h
      cases h
      exact ⟨f, .inr ⟨d₁, rfl, hwrite⟩⟩
    · rw [hwrite] at h
      cases h

/-- A text file can be written at the path. -/
def Accepts (s : Site) (path : String) : Prop :=
  ((s.writeText path "").run s.disk).1 = .ok ()

theorem Accepts.exists_folders {s : Site} {path : String} (h : s.Accepts path) : ∃ d₁ d₂,
    (s.makeFolders (Path.parent path)).run s.disk = (.ok (), d₁) ∧
      (s.write path []).run d₁ = (.ok (), d₂) := by
  have hempty : Text.encodeStrict "" = .ok [] := by decide +kernel
  unfold Accepts at h
  rcases hrun : (s.writeText path "").run s.disk with ⟨r, d₂⟩
  rw [hrun] at h
  cases h
  obtain ⟨d₁, hfolders, hwrite⟩ := (writeText_eq_ok_iff hempty).1 hrun
  exact ⟨d₁, d₂, hfolders, hwrite⟩

/-- A text that has bytes is written where a file can be, and no other file changes. -/
theorem Accepts.writeText {s : Site} {path text : String} {bytes : List UInt8}
    (h : s.Accepts path) (ht : Text.encodeStrict text = .ok bytes) : ∃ d' place mode,
      (s.writeText path text).run s.disk = (.ok (), d') ∧
        (s.on d').locate path = .ok (place, .file bytes mode) ∧
        SameFiles (· = place) s.disk d' := by
  obtain ⟨d₁, d₂, hfolders, hwrite⟩ := h.exists_folders
  obtain ⟨d', hwrite'⟩ := write_isOk hwrite bytes
  obtain ⟨place, mode, hloc, hsame⟩ := write_eq_ok hwrite'
  have hkeeps := s.makeFolders_keeps (Path.parent path) s.disk
  refine ⟨d', place, mode, ?_, hloc, (SameFiles.mono ?_ fun _ => False.elim).trans hsame⟩
  · exact (writeText_eq_ok_iff ht).2 ⟨d₁, hfolders, hwrite'⟩
  · rwa [hfolders] at hkeeps

/-- A text without bytes leaves an empty file where a file can be written. -/
theorem Accepts.writeText_error {s : Site} {path text : String} {u : Text.Unwritable}
    (h : s.Accepts path) (ht : Text.encodeStrict text = .error u) : ∃ d',
      (s.writeText path text).run s.disk = (.error (.inr u), d') := by
  obtain ⟨d₁, d₂, hfolders, hwrite⟩ := h.exists_folders
  exact ⟨d₂, by rw [run_writeText, hfolders, ht]; simp only [hwrite]⟩

end Site

theorem Text.isSurrogate_of_mem {s : String} (h : Text.unwritable? s = none) {c : Char}
    (hc : c ∈ s.toList) : isSurrogate c = false := by
  unfold unwritable? at h
  dsimp only at h
  split at h
  · rename_i hdrop
    have hall := (List.takeWhile_prefix (!isSurrogate ·)).eq_of_length_le
      (List.drop_eq_nil_iff.1 hdrop)
    rw [← hall] at hc
    simpa using List.all_eq_true.1 List.all_takeWhile c hc
  · cases h

end PerfReview
