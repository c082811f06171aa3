import Mathlib.Data.List.Sort
import PerfReview.Proofs.Disk.Alike
import PerfReview.Proofs.Scan.Ways

/-!
# What a scan does not look at

A pattern hides a file from a scan: one that ignores the file or a folder on the way to it, or the
lack of one that includes it. Scans of trees that look alike and differ in hidden files only meet
the same files in the same order.
-/

namespace PerfReview.Scan

/-- The patterns keep a scan from the file at the end of a way. -/
inductive Hidden (includes ignores names : List String) : Prop where
  | ignored : matchesAny ignores (way names) = true → Hidden includes ignores names
  | within {front : List String} : front <+: names → front ≠ [] → front ≠ names →
      matchesAny ignores (way front ++ "/") = true → Hidden includes ignores names
  | notIncluded : matchesAny includes (way names) = false → Hidden includes ignores names

variable {d d' : Disk} {free : List String → Prop} {sel : Selection} {root : String}
  {place : List String} {entries entries' : List (String × Node)} {names : List String}
  {c : Candidate}

theorem Leads.not_hidden (htidy : (Node.folder entries).Tidy)
    (hl : Leads d sel.ignores root "" (.folder entries) names c)
    (hincluded : matchesAny sel.includes c.relative = true) :
    ¬ Hidden sel.includes sel.ignores names := by
  have hway := (names_of_leads htidy hl).1
  rintro (hignored | ⟨hpre, hne, hne', hignored⟩ | hout)
  · exact Bool.false_ne_true (hl.kept.symm.trans (hway ▸ hignored))
  · obtain ⟨m, hm, -⟩ := hl.content
    have hnames := htidy.isName_of_at? hm
    have hopen := (Bool.or_eq_false_iff.1 (hl.entered _ hpre hne hne')).1
    rw [foldl_under_empty fun n hn => hnames n (hpre.subset hn)] at hopen
    exact Bool.false_ne_true (hopen.symm.trans hignored)
  · exact Bool.false_ne_true ((hway ▸ hout).symm.trans hincluded)

/-- Two trees at one place look alike, have no links, and differ in hidden files only. -/
structure Veiled (free : List String → Prop) (d d' : Disk) (sel : Selection)
    (place : List String) (entries entries' : List (String × Node)) : Prop where
  alike : d.Alike free d'
  folder : d.top.at? place = some (.folder entries)
  folder' : d'.top.at? place = some (.folder entries')
  linkless : ∀ names target, d.top.at? (place ++ names) ≠ some (.link target)
  hidden : ∀ names, free (place ++ names) → Hidden sel.includes sel.ignores names

namespace Veiled

theorem symm (h : Veiled free d d' sel place entries entries') :
    Veiled free d' d sel place entries' entries := by
  refine ⟨h.alike.symm, h.folder', h.folder, fun names target e => ?_, h.hidden⟩
  obtain ⟨n, hn, halike⟩ := h.alike.symm.exists_at? e
  cases halike
  exact h.linkless names _ hn

theorem tidy (h : Veiled free d d' sel place entries entries') : (Node.folder entries).Tidy :=
  h.alike.tidy.at? h.folder

theorem at?_append (h : Veiled free d d' sel place entries entries') (names : List String) :
    d.top.at? (place ++ names) = (Node.folder entries).at? names := by
  rw [Node.at?_append, h.folder, Option.bind_some]

theorem leads (h : Veiled free d d' sel place entries entries')
    (hl : Leads d sel.ignores root "" (.folder entries) names c)
    (hincluded : matchesAny sel.includes c.relative = true) :
    Leads d' sel.ignores root "" (.folder entries') names c := by
  have hhidden := hl.not_hidden h.tidy hincluded
  obtain ⟨m, hm, hcontent⟩ := hl.content
  refine ⟨hl.path_eq, hl.relative_eq, ?_, hl.entered, hl.kept⟩
  cases m with
  | folder => cases hcontent
  | link target => exact absurd ((h.at?_append names).trans hm) (h.linkless names target)
  | file bytes mode =>
    obtain ⟨n', hn', halike⟩ := h.alike.exists_at? ((h.at?_append names).trans hm)
    refine ⟨n', (h.symm.at?_append names).symm.trans hn', ?_⟩
    cases halike with
    | file hbytes =>
      -- the bytes are the same, since what is met is not hidden
      obtain hfree | rfl := hbytes
      · exact absurd (h.hidden names hfree) hhidden
      · exact hcontent

theorem mem_matching (h : Veiled free d d' sel place entries entries')
    (hc : c ∈ matching d sel root entries) : c ∈ matching d' sel root entries' := by
  obtain ⟨⟨names, hl⟩, hincluded⟩ := (mem_matching_iff h.tidy).1 hc
  exact (mem_matching_iff h.symm.tidy).2 ⟨⟨names, h.leads hl hincluded⟩, hincluded⟩

theorem matching_alike (h : Veiled free d d' sel place entries entries') (root : String) :
    matching d' sel root entries' = matching d sel root entries := by
  have hasymm : Std.Asymm fun c c' : Candidate =>
      Before (namesOf c.relative) (namesOf c'.relative) := ⟨fun _ _ => Before.asymm⟩
  have hirrefl : Std.Irrefl fun c c' : Candidate =>
      Before (namesOf c.relative) (namesOf c'.relative) := inferInstance
  have hanti : Std.Antisymm fun c c' : Candidate =>
      Before (namesOf c.relative) (namesOf c'.relative) := inferInstance
  exact (matching_pairwise h.symm.tidy).eq_of_mem_iff (matching_pairwise h.tidy) fun _ =>
    ⟨h.symm.mem_matching, h.mem_matching⟩

end Veiled

theorem exists_veiled {site : Site} (halike : site.disk.Alike free d')
    (hplace : site.locate root = .ok (place, .folder entries))
    (hlinks : (Node.folder entries).linkCount = 0)
    (hfree : ∀ names, free (place ++ names) → Hidden sel.includes sel.ignores names) :
    ∃ entries', Veiled free site.disk d' sel place entries entries' := by
  obtain ⟨f, hf, -⟩ | ⟨parts, n, n', hn, -, hat, hat', hnode⟩ := Site.locate_on halike root
  · cases hf.symm.trans hplace
  · cases hn.symm.trans hplace
    cases hnode with
    | folder =>
      refine ⟨_, halike, hat, hat', fun names target => ?_, hfree⟩
      rw [Node.at?_append, hat]
      exact Node.at?_ne_link hlinks names target

/-- A scan finds the same in both file systems. -/
theorem run_on {site : Site} {target : String}
    (h : Veiled free site.disk d' sel place entries entries')
    (hroot : (site.expand target >>= site.resolve) = .ok root)
    (hplace : site.locate root = .ok (place, .folder entries)) :
    run (site.on d') target sel = run site target sel := by
  have hfind : site.find? root = .ok (some (.folder entries)) := by rw [Site.find?, hplace]
  have hfind' : (site.on d').find? root = .ok (some (.folder entries')) := by
    obtain ⟨f, hf, -⟩ | ⟨parts, n, n', hn, hn', -, hat', -⟩ := Site.locate_on h.alike root
    · cases hf.symm.trans hplace
    · cases hn.symm.trans hplace
      cases hat'.symm.trans h.folder'
      rw [Site.find?, hn']
  have hroot' : ((site.on d').expand target >>= (site.on d').resolve) = .ok root := by
    rw [funext (Site.resolve_on h.alike), ← hroot]
    rfl
  have hrun : run site target sel = .ok ⟨root, sel.maxFileSize,
      settle sel.maxFileSize 0 (matching site.disk sel root entries)⟩ :=
    run_eq_ok_iff.2 ⟨root, entries, hroot, hfind, rfl⟩
  rw [hrun, ← h.matching_alike root]
  exact run_eq_ok_iff.2 ⟨root, entries', hroot', hfind', rfl⟩

end PerfReview.Scan
