import Mathlib.Data.List.Sort
import PerfReview.Defaults
import PerfReview.Proofs.Pattern
import PerfReview.Proofs.Scan.Ways

/-!
# Folders that a scan does not enter

A scan does not enter a folder whose path with a slash after it is ignored. Where every ignore
pattern ends with a star, a letter or a digit, the paths of all files below such a folder are ignored
too. Then a scan meets the files of the whole tree whose own paths are not ignored, in the same
order.
-/

namespace PerfReview

theorem matchesAny_below {patterns : List String} {folder path : String} {t : List Char}
    (hend : ∀ p ∈ patterns, Pattern.EndsPlainly p.toList)
    (h : matchesAny patterns (folder ++ "/") = true)
    (hpath : path.toList = folder.toList ++ '/' :: t) : matchesAny patterns path = true := by
  obtain ⟨p, hp, hmatches⟩ := List.any_eq_true.1 h
  refine List.any_eq_true.2 ⟨p, hp, ?_⟩
  rw [matchesPattern, String.toList_append] at hmatches
  rw [matchesPattern, hpath]
  exact Pattern.matchesChars_below (hend p hp) hmatches t

/-- A pattern that ends with a slash keeps a scan from a folder and ignores no file. -/
example : matchesAny ["skip/"] "skip/" = true ∧ matchesAny ["skip/"] "skip/c.js" = false := by
  decide

namespace Scan

variable {d : Disk} {ignores : List String} {root : String} {entries : List (String × Node)}
  {names : List String} {c c' : Candidate} {found found' : List Candidate}

/-! ## One order -/

theorem Follows.asymm (htidy : (Node.folder entries).Tidy)
    (h : Follows d ignores root "" (.folder entries) c c') :
    ¬ Follows d ignores root "" (.folder entries) c' c := by
  rintro ⟨as', bs', has', hbs', hbefore'⟩
  obtain ⟨as, bs, has, hbs, hbefore⟩ := h
  obtain rfl : as = bs' := (names_of_leads htidy has).2.symm.trans (names_of_leads htidy hbs').2
  obtain rfl : bs = as' := (names_of_leads htidy hbs).2.symm.trans (names_of_leads htidy has').2
  exact hbefore.asymm hbefore'

/-- The files that ways lead to have one order. -/
theorem Listed.unique (htidy : (Node.folder entries).Tidy)
    (h : Listed d ignores root "" (.folder entries) found)
    (h' : Listed d ignores root "" (.folder entries) found') : found = found' := by
  have hasymm : Std.Asymm (Follows d ignores root "" (.folder entries)) :=
    ⟨fun _ _ hf => hf.asymm htidy⟩
  have hirrefl : Std.Irrefl (Follows d ignores root "" (.folder entries)) := inferInstance
  have hanti : Std.Antisymm (Follows d ignores root "" (.folder entries)) := inferInstance
  refine h.ordered.eq_of_mem_iff h'.ordered fun c => ?_
  rw [h.mem_iff, h'.mem_iff]

/-! ## Ways without ignored folders -/

theorem way_append {front rest : List String} (hfront : front ≠ []) (hrest : rest ≠ []) :
    way (front ++ rest) = way front ++ "/" ++ way rest := by
  have hway : ∀ n m ms, way (n :: m :: ms) = n ++ "/" ++ way (m :: ms) := fun _ _ _ =>
    String.intercalate_cons_cons
  induction front with
  | nil => exact absurd rfl hfront
  | cons n front ih =>
    cases front with
    | nil =>
      obtain ⟨m, rest, rfl⟩ := List.exists_cons_of_ne_nil hrest
      have hsingle : way [n] = n := String.intercalate_singleton
      rw [hsingle]
      exact hway n m rest
    | cons m front =>
      rw [List.cons_append, List.cons_append, hway, hway, ← List.cons_append,
        ih (List.cons_ne_nil m front)]
      simp only [String.append_assoc]

/-- Where what lies below an ignored folder is ignored as well, the file alone says whether a way
leads to it. -/
theorem leads_iff_kept (htidy : (Node.folder entries).Tidy)
    (hend : ∀ p ∈ ignores, Pattern.EndsPlainly p.toList) :
    Leads d ignores root "" (.folder entries) names c ↔
      Leads d [] root "" (.folder entries) names c ∧ matchesAny ignores c.relative = false := by
  constructor
  · intro h
    refine ⟨⟨h.path_eq, h.relative_eq, h.content, fun front hpre hne hne' => ?_, rfl⟩, h.kept⟩
    exact Bool.or_eq_false_iff.2 ⟨rfl, (Bool.or_eq_false_iff.1 (h.entered front hpre hne hne')).2⟩
  · rintro ⟨h, hkept⟩
    refine ⟨h.path_eq, h.relative_eq, h.content, fun front hpre hne hne' => ?_, hkept⟩
    obtain ⟨m, hm, -⟩ := h.content
    have hnames := htidy.isName_of_at? hm
    have hrelative : c.relative = way names := (names_of_leads htidy h).1
    rw [foldl_under_empty fun n hn => hnames n (hpre.subset hn)]
    refine Bool.or_eq_false_iff.2
      ⟨?_, (Bool.or_eq_false_iff.1 (h.entered front hpre hne hne')).2⟩
    rw [Bool.eq_false_iff]
    intro hignored
    obtain ⟨rest, rfl⟩ := hpre
    have hrest : rest ≠ [] := fun e => hne' (by rw [e, List.append_nil])
    have hway : c.relative.toList = (way front).toList ++ '/' :: (way rest).toList := by
      rw [hrelative, way_append hne hrest]
      simp
    exact Bool.false_ne_true (hkept.symm.trans (matchesAny_below hend hignored hway))

theorem Listed.filter_kept (htidy : (Node.folder entries).Tidy)
    (hend : ∀ p ∈ ignores, Pattern.EndsPlainly p.toList)
    (h : Listed d [] root "" (.folder entries) found) :
    Listed d ignores root "" (.folder entries)
      (found.filter fun c => !matchesAny ignores c.relative) := by
  have hmem : ∀ c, c ∈ found.filter (fun c => !matchesAny ignores c.relative) ↔
      ∃ names, Leads d ignores root "" (.folder entries) names c := by
    intro c
    rw [List.mem_filter, h.mem_iff, Bool.not_eq_true']
    simp only [leads_iff_kept htidy hend, exists_and_right]
  refine ⟨hmem, (h.ordered.sublist List.filter_sublist).imp_of_mem ?_⟩
  rintro c c' hc hc' ⟨names, names', hnames, hnames', hbefore⟩
  have hkept : ∀ {c}, c ∈ found.filter (fun c => !matchesAny ignores c.relative) →
      matchesAny ignores c.relative = false := fun hc => by
    simpa using (List.mem_filter.1 hc).2
  exact ⟨names, names', (leads_iff_kept htidy hend).2 ⟨hnames, hkept hc⟩,
    (leads_iff_kept htidy hend).2 ⟨hnames', hkept hc'⟩, hbefore⟩

/-- The candidates of a scan are the files of the whole tree that are not ignored. -/
theorem candidates_eq_filter (d : Disk) (root : String) (htidy : (Node.folder entries).Tidy)
    (hend : ∀ p ∈ ignores, Pattern.EndsPlainly p.toList) :
    candidates d ignores root entries =
      (candidates d [] root entries).filter fun c => !matchesAny ignores c.relative :=
  (candidates_listed d ignores root htidy).unique htidy
    ((candidates_listed d [] root htidy).filter_kept htidy hend)

/-! ## Whole scans -/

/-- A scan that tries the ignore patterns on the paths of files alone. It goes through the candidates
for which there is no pattern, which by `candidates_listed` are all the files below the folder. -/
def runWhole (site : Site) (target : String) (sel : Selection) : Except TargetFault Scan := do
  let root ← (site.expand target >>= site.resolve).mapError .unusable
  match ← (site.find? root).mapError .unusable with
  | none => throw (.missing target)
  | some (.folder entries) =>
    let kept := (candidates site.disk [] root entries).filter fun c =>
      !matchesAny sel.ignores c.relative
    let matching := kept.filter fun c => matchesAny sel.includes c.relative
    return ⟨root, sel.maxFileSize, settle sel.maxFileSize 0 matching⟩
  | some _ => throw (.notFolder target)

/-- That ignored folders are not entered makes no difference to what a scan finds, in what order, if
the ignore patterns end with a star, a letter or a digit, as the default ones do. -/
theorem run_eq_runWhole :
    (∀ p ∈ defaultIgnores, Pattern.EndsPlainly p.toList) ∧
    ∀ (site : Site) (target : String) (sel : Selection), site.disk.top.Tidy →
      (∀ p ∈ sel.ignores, Pattern.EndsPlainly p.toList) →
      Scan.run site target sel = runWhole site target sel := by
  refine ⟨by decide, fun site target sel htidy hend => ?_⟩
  unfold Scan.run runWhole
  cases (site.expand target >>= site.resolve).mapError TargetFault.unusable with
  | error f => rfl
  | ok root =>
    simp only [bind, Except.bind]
    cases hfind : site.find? root with
    | error f => rfl
    | ok found =>
      cases found with
      | none => rfl
      | some n =>
        cases n with
        | file => rfl
        | link => rfl
        | folder entries =>
          have htidy' : (Node.folder entries).Tidy := Site.find?_tidy htidy hfind
          simp only [Except.mapError, candidates_eq_filter site.disk root htidy' hend]

theorem run_eq_runWhole_linked :
    Scan.run Sample.linkedSite "/p" ⟨["**/*.js"], ["**/skip/**", "gone*"], 1⟩ =
      runWhole Sample.linkedSite "/p" ⟨["**/*.js"], ["**/skip/**", "gone*"], 1⟩ :=
  run_eq_runWhole.2 _ _ _ Sample.linkedSite_tidy (by decide)

end Scan

end PerfReview
