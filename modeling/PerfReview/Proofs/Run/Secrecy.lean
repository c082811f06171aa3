import PerfReview.Audit
import PerfReview.Proofs.Run.Trace
import PerfReview.Proofs.Scan.Hidden
import PerfReview.Proofs.Settings
import PerfReview.Standard

/-!
# What a run keeps to itself

A run asks the model about nothing but the files that no pattern hides. Two file systems that look
alike and differ in hidden files only, the settings, ignore and audit files being the same, have the
same settings, and their runs are the same, request by request.
-/

namespace PerfReview

namespace Audit

variable {site : Site} {d' : Disk}

theorem load_on [Json.Room] {path : String} (h : (site.on d').read path = site.read path) :
    load (site.on d') path = load site path := by
  rw [load, load, Site.readText_on h]

end Audit

namespace Run

/-- The places where two file systems may differ for a run on the folder at a place: those out of
the folder, and those in it that a pattern hides. -/
def Unseen (settings : Settings) (place parts : List String) : Prop :=
  ∀ names, parts = place ++ names → Scan.Hidden settings.includes settings.ignores names

/-- The files that are read for a run besides those that are reviewed are the same. -/
structure SameSettings (site : Site) (disk : Disk) (path : String) (settings : Settings) :
    Prop where
  file : ∀ found, Settings.file site path = .ok found →
    (site.on disk).read found = site.read found
  ignoreFile : (site.on disk).read (Path.join settings.root Settings.ignoreFileName) =
    site.read (Path.join settings.root Settings.ignoreFileName)
  audit : ∀ p ∈ settings.audit, (site.on disk).read p = site.read p

/-- Runs with the settings of a path cannot tell two file systems apart. All patterns of the ignore
file and of the key `ignore` are in force in them. -/
structure Sealed [Json.Room] [Yaml.Library] (site : Site) (disk : Disk) (path target : String)
    (settings : Settings) : Prop where
  ignoreLines : ∀ text, site.readText (Path.join settings.root Settings.ignoreFileName) = .ok text →
    Settings.ignoreLines text ⊆ settings.ignores
  ignoreKey : ∀ found v added, Settings.file site path = .ok found → site.has found = .ok true →
    Settings.document site found = .ok v → (v.field "ignore").asTexts = .ok added →
      added ⊆ settings.ignores
  loaded : Settings.load (site.on disk) path = .ok settings
  audit : settings.audit.mapM (Audit.load (site.on disk)) = settings.audit.mapM (Audit.load site)
  run : ∀ {σ : Type} (s : Setup σ) (clock : Clock) (adapter : Adapter σ) (token : Token),
    analyze s clock (site.on disk) target settings.includes settings.ignores adapter token =
      analyze s clock site target settings.includes settings.ignores adapter token

/-- What the patterns in force hide in a folder without links makes no difference to the settings,
the requests and the result of a run. -/
theorem analyze_sealed [Json.Room] [Yaml.Library] (site : Site) (disk : Disk)
    (path target : String) {settings : Settings} {root : String} {place : List String}
    {entries : List (String × Node)}
    (hload : Settings.load site path = .ok settings)
    (hroot : (site.expand target >>= site.resolve) = .ok root)
    (hplace : site.locate root = .ok (place, .folder entries))
    (hlinks : (Node.folder entries).linkCount = 0)
    (halike : site.disk.Alike (Unseen settings place) disk)
    (hsame : SameSettings site disk path settings) :
    Sealed site disk path target settings := by
  constructor
  case ignoreLines => exact fun _ => Settings.ignoreLines_subset hload
  case ignoreKey => exact fun _ _ _ => Settings.added_subset hload
  case loaded => exact Settings.load_on halike hload hsame.file hsame.ignoreFile
  case audit =>
    cases hp : settings.audit with
    | none => rfl
    | some p => simp [Audit.load_on (hsame.audit p hp)]
  case run =>
    intro σ s clock adapter token
    have hfree : ∀ names, Unseen settings place (place ++ names) →
        Scan.Hidden settings.includes settings.ignores names := fun names h => h names rfl
    obtain ⟨entries', hveiled⟩ : ∃ entries', Scan.Veiled (Unseen settings place) site.disk disk
        ⟨settings.includes, settings.ignores, s.limits.bounds.maxFileSize⟩ place entries entries' :=
      Scan.exists_veiled halike hplace hlinks hfree
    rw [analyze, analyze, Scan.run_on hveiled hroot hplace]

/-- A folder with an ignore file that keeps a run from one of its folders. -/
def Sample.guardedDisk : Disk :=
  ((Disk.empty.place "/p/a.js" (.file [120, 10] 0o644)).place "/p/.perflensignore"
    (.file (Text.encode "secret/\n") 0o644)).place "/p/secret/key.js" (.file [107] 0o600)

def Sample.guardedSite : Site := { disk := Sample.guardedDisk, working := "/", home := "/" }

def Sample.otherDisk : Disk :=
  Sample.guardedDisk.place "/p/secret/key.js" (.file [108, 111, 99, 107] 0o600)

def Sample.guardedSettings : Settings :=
  { root := "/p", ignores := defaultIgnores ++ ["secret/"] }

theorem Sample.guardedDisk_alike :
    Sample.guardedDisk.Alike (Unseen Sample.guardedSettings ["p"]) Sample.otherDisk := by
  have htidy : Sample.guardedDisk.top.Tidy := by
    refine Disk.place_tidy (Disk.place_tidy ?_ _ .file) _ .file
    exact Disk.place_tidy (d := .empty) Node.tidy_nil _ .file
  have hfile : Sample.guardedDisk.top.at? (Path.parts "/p/secret/key.js") =
      some (.file [107] 0o600) := rfl
  refine (Disk.place_alike htidy hfile _).mono fun parts hparts names hnames => ?_
  have hsecret : ["p", "secret", "key.js"] = ["p"] ++ names := hparts.symm.trans hnames
  cases hsecret
  exact .within (show ["secret"] <+: _ from ⟨_, rfl⟩) (by simp) (by simp) (by decide +kernel)

theorem Sample.load_guardedSite : Settings.load guardedSite "/p" = .ok guardedSettings := by
  have h : (Settings.load guardedSite "/p").toOption.map id = some guardedSettings := by
    decide +kernel
  obtain ⟨settings, hload, e⟩ := exists_of_map_eq_some h
  exact hload.trans (congrArg Except.ok e)

theorem Sample.locate_guardedSite : ∃ entries,
    guardedSite.locate "/p" = .ok (["p"], .folder entries) ∧
      (Node.folder entries).linkCount = 0 := by
  have h : (guardedSite.locate "/p").toOption.map (fun x => (x.1, x.2.isFolder, x.2.linkCount)) =
      some (["p"], true, 0) := by decide +kernel
  obtain ⟨⟨place, n⟩, hplace, e⟩ := exists_of_map_eq_some h
  cases n with
  | folder entries =>
    cases congrArg Prod.fst e
    exact ⟨entries, hplace, congrArg (·.2.2) e⟩
  | file => cases congrArg (·.2.1) e
  | link => cases congrArg (·.2.1) e

theorem Sample.guardedDisk_same : SameSettings guardedSite otherDisk "/p" guardedSettings := by
  constructor
  case file =>
    intro found hfound
    have hfile : Settings.file guardedSite "/p" = .ok "/p/.perflens.yml" := by decide +kernel
    cases hfound.symm.trans hfile
    decide +kernel
  case ignoreFile => decide +kernel
  case audit => exact nofun

theorem analyze_sealed_sample :
    Settings.load Sample.guardedSite "/p" = .ok Sample.guardedSettings ∧
    (Sample.guardedSite.expand "/p" >>= Sample.guardedSite.resolve) = .ok "/p" ∧
    ∃ entries, Sample.guardedSite.locate "/p" = .ok (["p"], .folder entries) ∧
      (Node.folder entries).linkCount = 0 ∧
      Sample.guardedSite.disk.Alike (Unseen Sample.guardedSettings ["p"]) Sample.otherDisk ∧
      SameSettings Sample.guardedSite Sample.otherDisk "/p" Sample.guardedSettings ∧
      Sealed Sample.guardedSite Sample.otherDisk "/p" "/p" Sample.guardedSettings := by
  have hroot : (Sample.guardedSite.expand "/p" >>= Sample.guardedSite.resolve) = .ok "/p" := by
    decide +kernel
  obtain ⟨entries, hplace, hlinks⟩ := Sample.locate_guardedSite
  exact ⟨Sample.load_guardedSite, hroot, entries, hplace, hlinks, Sample.guardedDisk_alike,
    Sample.guardedDisk_same, analyze_sealed _ _ _ _ Sample.load_guardedSite hroot hplace hlinks
      Sample.guardedDisk_alike Sample.guardedDisk_same⟩

end Run

end PerfReview
