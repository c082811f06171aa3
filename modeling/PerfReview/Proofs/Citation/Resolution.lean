import PerfReview.Proofs.Citation.Decoration
import PerfReview.Proofs.Disk.Tidy
import PerfReview.Proofs.Response.Files

/-!
# What citations mean

In an index of files below a folder, a decorated path means the file stored under its plain form, be
it written from the folder or from the root; and what a citation means is the file whose path, so
written, is its plain form. The root of the file system itself is no such folder, in either spelling:
its path ends with a slash, to which no other is added.
-/

namespace PerfReview

/-! ## Paths of folders -/

/-- The normal form of an absolute path. -/
structure Path.IsFull (p : String) : Prop where
  normal : Path.normal p = p
  absolute : Path.isAbsolute p = true

theorem Path.exists_getLast?_intercalate {ps : List String} (hne : ps ≠ [])
    (hps : ∀ p ∈ ps, IsName p) :
    ∃ c, (String.intercalate "/" ps).toList.getLast? = some c ∧ c ≠ '/' := by
  induction ps with
  | nil => exact absurd rfl hne
  | cons p ps ih =>
    obtain ⟨⟨hempty, hslash⟩, hps⟩ := List.forall_mem_cons.1 hps
    cases ps with
    | nil =>
      have hp : p.toList ≠ [] := mt String.toList_eq_nil_iff.1 hempty
      refine ⟨p.toList.getLast hp, ?_, fun e => hslash ?_⟩
      · rw [String.intercalate_singleton, List.getLast?_eq_some_getLast hp]
      · rw [← e]
        exact List.getLast_mem hp
    | cons p' ps =>
      obtain ⟨c, hlast, hc⟩ := ih (List.cons_ne_nil p' ps) hps
      refine ⟨c, ?_, hc⟩
      rw [String.intercalate_cons_cons, String.toList_append, List.getLast?_append, hlast,
        Option.some_or]

theorem Path.IsFull.getLast?_ne {root : String} (h : Path.IsFull root) (hone : root ≠ "/")
    (htwo : root ≠ "//") : root.toList.getLast? ≠ some '/' := by
  obtain ⟨hnormal, habsolute⟩ := h
  have hanchor : Path.anchor root = "/" ∨ Path.anchor root = "//" := by
    obtain ⟨t, ht⟩ := List.head?_eq_some_iff.1 (of_decide_eq_true habsolute)
    unfold Path.anchor
    rw [ht]
    split <;> simp_all
  have hstart : Path.anchor root ≠ "" := by
    rcases hanchor with e | e <;> rw [e] <;> decide
  have hbuild : root = Path.anchor root ++ String.intercalate "/" (Path.parts root) := by
    unfold Path.normal Path.build at hnormal
    rw [if_neg (by simp [hstart])] at hnormal
    exact hnormal.symm
  by_cases hparts : Path.parts root = []
  · -- a path without parts is its start
    rw [hparts, String.intercalate_nil, String.append_empty] at hbuild
    rcases hanchor with e | e
    · exact absurd (hbuild.trans e) hone
    · exact absurd (hbuild.trans e) htwo
  · obtain ⟨c, hlast, hc⟩ :=
      Path.exists_getLast?_intercalate hparts fun _ => Path.isName_of_mem_parts
    rw [hbuild, String.toList_append, List.getLast?_append, hlast, Option.some_or]
    exact fun e => hc (Option.some.inj e)

namespace Index

open Citation

variable {files : List Source} {root m c : String} {f : Source}

/-! ## Files by their paths -/

theorem relative_of_get? {root : Option String}
    (h : Assoc.get? (ofFiles files root).files m = some f) : f.relative = m := by
  obtain ⟨f', -, e⟩ := List.mem_map.1 (Assoc.mem_ofPairs (Assoc.mem_of_get?_eq_some h))
  cases e
  rfl

theorem rootPath_eq (h : root.toList.getLast? ≠ some '/') : rootPath root = root.toList ++ ['/'] := by
  have hstops : Text.Stops (· = '/') root.toList.reverse := by
    intro d hd
    rw [List.head?_reverse] at hd
    rw [decide_eq_false_iff_not]
    rintro rfl
    exact h hd
  have hdrop : root.toList.reverse.dropWhile (· = '/') = root.toList.reverse :=
    Text.dropWhile_append_of_stops (g := []) (by simp) hstops
  unfold rootPath
  rw [hdrop, List.reverse_reverse]

/-! ## What an index finds -/

theorem find?_of_get? (hne : m ≠ "") (h : Assoc.get? (ofFiles files (some root)).files m = some f) :
    (ofFiles files (some root)).find? m.toList = some f := by
  have hempty : m.toList.isEmpty = false := by simpa using hne
  unfold find?
  rw [hempty, String.ofList_toList, h]
  rfl

theorem find?_below (hroot : Path.isAbsolute root = true) (hend : root.toList.getLast? ≠ some '/')
    (hfiles : ∀ f ∈ files, Path.isAbsolute f.relative = false)
    (h : Assoc.get? (ofFiles files (some root)).files m = some f) :
    (ofFiles files (some root)).find? (root ++ "/" ++ m).toList = some f := by
  obtain ⟨t, ht⟩ := List.head?_eq_some_iff.1 (of_decide_eq_true hroot)
  have htext : (root ++ "/" ++ m).toList = '/' :: (t ++ '/' :: m.toList) := by
    rw [String.toList_append, String.toList_append, ht, List.append_assoc]
    rfl
  have hnone : Assoc.get? (ofFiles files (some root)).files (root ++ "/" ++ m) = none := by
    cases hget : Assoc.get? (ofFiles files (some root)).files (root ++ "/" ++ m) with
    | none => rfl
    | some f' =>
      have hrelative := hfiles f' (mem_of_get? hget)
      rw [relative_of_get? hget, Path.isAbsolute, htext] at hrelative
      cases hrelative
  have hrest : Text.dropHead? (rootPath root) ('/' :: (t ++ '/' :: m.toList)) = some m.toList := by
    rw [Text.dropHead?_eq_some_iff, rootPath_eq hend, ht]
    simp
  unfold find?
  rw [String.ofList_toList, hnone, htext]
  show (Text.dropHead? (rootPath root) ('/' :: (t ++ '/' :: m.toList))).bind _ = some f
  rw [hrest]
  show Assoc.get? (ofFiles files (some root)).files (String.ofList m.toList) = some f
  rw [String.ofList_toList, h]

/-- What is found has the path, or has it behind that of the folder. -/
theorem relative_of_find? {path : List Char} (hend : root.toList.getLast? ≠ some '/')
    (h : (ofFiles files (some root)).find? path = some f) :
    String.ofList path = f.relative ∨ String.ofList path = root ++ "/" ++ f.relative := by
  unfold find? at h
  split at h
  · cases h
  · split at h
    · rename_i hget
      cases h
      exact .inl (relative_of_get? hget).symm
    · split at h
      · rename_i folder rest hfolder _ _
        cases hfolder
        obtain ⟨below, hbelow, hget⟩ := Option.bind_eq_some_iff.1 h
        rw [Text.dropHead?_eq_some_iff, rootPath_eq hend] at hbelow
        refine .inr ?_
        rw [relative_of_get? hget, hbelow, String.ofList_append, String.ofList_append,
          String.ofList_toList]
      · cases h

/-! ## Citations -/

/-- What citations mean in an index of files below a folder: a path that is its own plain form means
the file stored under it, written from the folder or from the root, however it is decorated; and
nothing else means a file. -/
structure Resolves (ix : Index) (root : String) : Prop where
  decorated : ∀ m f, Assoc.get? ix.files m = some f → normalizeCitation m = m →
    normalizeCitation (root ++ "/" ++ m) = root ++ "/" ++ m → ∀ u w : List Char,
    ((∃ k, u = fromHere k m.toList) ∨ u = (root ++ "/" ++ m).toList) → Decorated u w →
    ix.resolve (String.ofList w) = some f
  sound : ∀ c f, ix.resolve c = some f →
    normalizeCitation c = f.relative ∨ normalizeCitation c = root ++ "/" ++ f.relative

theorem plain_of_normalizeCitation {s : String} (h : normalizeCitation s = s) :
    plain s.toList = s.toList := by
  rw [← String.toList_ofList (l := plain s.toList)]
  exact congrArg String.toList h

/-- Citations resolve to the right files below every folder but the root of the file system. -/
theorem resolves_of_isFull (hroot : Path.IsFull root) (hone : root ≠ "/") (htwo : root ≠ "//")
    (hfiles : ∀ f ∈ files, f.relative ≠ "" ∧ Path.isAbsolute f.relative = false) :
    (ofFiles files (some root)).Resolves root := by
  have hend := hroot.getLast?_ne hone htwo
  constructor
  case decorated =>
    intro m f hget hm hfull u w hu hw
    have hne : m ≠ "" := relative_of_get? hget ▸ (hfiles f (mem_of_get? hget)).1
    have hlist : m.toList ≠ [] := mt String.toList_eq_nil_iff.1 hne
    unfold resolve
    rw [String.toList_ofList]
    rcases hu with ⟨k, rfl⟩ | rfl
    · obtain ⟨hsealed, hslashes, hhere⟩ :=
        sealed_of_plain_eq_self hlist (plain_of_normalizeCitation hm)
      have hsome : fromHere k m.toList ≠ [] := List.append_ne_nil_of_right_ne_nil _ hlist
      rw [plain_of_decorated hsome (isSealed_fromHere k hlist hsealed)
        (slashes_fromHere k hslashes) hw, dropHere_fromHere k hhere]
      exact find?_of_get? hne hget
    · have hsome : (root ++ "/" ++ m).toList ≠ [] := by simp
      obtain ⟨hsealed, hslashes, hhere⟩ :=
        sealed_of_plain_eq_self hsome (plain_of_normalizeCitation hfull)
      rw [plain_of_decorated hsome hsealed hslashes hw, hhere]
      exact find?_below hroot.absolute hend (fun f hf => (hfiles f hf).2) hget
  case sound =>
    intro c f h
    exact relative_of_find? hend h

def spacedFile : Source := ⟨"/p/a b/c.js", "a b/c.js", 0, ".js", some .javascript, 0, ⟨"", none⟩⟩

/-- The path of the file in two layers, its slashes turned. -/
def spacedCitation : String := " **\x60.\\a b\\c.js \x60\t**\n"

theorem resolves_of_isFull_spaced : Path.IsFull "/p" ∧ "/p" ≠ "/" ∧ "/p" ≠ "//" ∧
    (∀ f ∈ [spacedFile], f.relative ≠ "" ∧ Path.isAbsolute f.relative = false) ∧
    (ofFiles [spacedFile] (some "/p")).Resolves "/p" ∧
    Decorated (fromHere 1 "a b/c.js".toList) spacedCitation.toList ∧
    (ofFiles [spacedFile] (some "/p")).resolve spacedCitation = some spacedFile := by
  have hroot : Path.IsFull "/p" := ⟨by decide +kernel, by decide⟩
  have hfiles : ∀ f ∈ [spacedFile], f.relative ≠ "" ∧ Path.isAbsolute f.relative = false := by
    decide
  have hresolves := resolves_of_isFull hroot (by decide) (by decide) hfiles
  have hdecorated : Decorated (fromHere 1 "a b/c.js".toList) spacedCitation.toList := by
    have hspelt : Respelt (fromHere 1 "a b/c.js".toList) ".\\a b\\c.js".toList := by
      repeat constructor
    have hinner : Coated ".\\a b\\c.js".toList "\x60.\\a b\\c.js \x60".toList :=
      @Coated.layer _ ['\x60'] [] _ [' '] (by decide) (by decide) .bare (by decide)
    have houter : Coated ".\\a b\\c.js".toList "**\x60.\\a b\\c.js \x60\t**".toList :=
      @Coated.layer _ ['*', '*'] [] _ ['\t'] (by decide) (by decide) hinner (by decide)
    exact ⟨_, [' '], _, ['\n'], hspelt, houter, by decide, by decide, rfl⟩
  have hcited := hresolves.decorated "a b/c.js" spacedFile rfl (by decide +kernel)
    (by decide +kernel) _ _ (.inl ⟨1, rfl⟩) hdecorated
  rw [String.ofList_toList] at hcited
  exact ⟨hroot, by decide, by decide, hfiles, hresolves, hdecorated, hcited⟩

/-- Below the root of the file system, written with two slashes, one slash in front of a path means
the file, and two do not. -/
theorem not_resolves_twoSlashes : Path.IsFull "//" ∧ "//" ≠ "/" ∧
    (∀ f ∈ [spacedFile], f.relative ≠ "" ∧ Path.isAbsolute f.relative = false) ∧
    ¬ (ofFiles [spacedFile] (some "//")).Resolves "//" := by
  refine ⟨⟨by decide +kernel, by decide⟩, by decide, by decide, fun h => ?_⟩
  have hsound := h.sound "/a b/c.js" spacedFile (by decide +kernel)
  exact absurd hsound (by decide +kernel)

end Index

end PerfReview
