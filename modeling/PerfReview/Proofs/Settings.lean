import PerfReview.Proofs.Disk.Alike
import PerfReview.Settings

/-!
# What settings come from

Loading settings reads two files, the settings file and the ignore file of its folder, and asks for
the rest only whether it is there. Whatever else the settings say, the patterns of the ignore file
and of the key `ignore` are in force.
-/

namespace PerfReview

theorem Text.filled_empty : filled (some "") = none := rfl

theorem Text.filled_of_ne_empty {s : String} (h : s ≠ "") : filled (some s) = some s := by
  simp [filled, Option.filter, h]

namespace Settings

theorem bind_eq_ok {ε α β : Type} {x : Except ε α} {f : α → Except ε β} {b : β} :
    (x >>= f) = .ok b ↔ ∃ a, x = .ok a ∧ f a = .ok b := by
  cases x <;> simp [bind, Except.bind]

theorem mapError_eq_ok {ε ε' α : Type} {x : Except ε α} {f : ε → ε'} {a : α} :
    x.mapError f = .ok a ↔ x = .ok a := by
  cases x <;> simp [Except.mapError]

/-! ## Parts of a document -/

section
variable {v : Value} {s s' : Settings}

theorem withAnalysis_keeps (h : withAnalysis v s = .ok s') :
    s'.root = s.root ∧ s'.model = s.model ∧ s'.output = s.output := by
  unfold withAnalysis at h
  split at h
  · cases h
    exact ⟨rfl, rfl, rfl⟩
  · obtain ⟨target, -, h⟩ := bind_eq_ok.1 h
    obtain ⟨limits, -, h⟩ := bind_eq_ok.1 h
    obtain ⟨includes, -, h⟩ := bind_eq_ok.1 h
    obtain ⟨ignores, -, h⟩ := bind_eq_ok.1 h
    cases h
    exact ⟨rfl, rfl, rfl⟩

/-- The settings of the model as a part of a document is read. -/
structure ReadsModel (v : Value) (m : ModelSettings) : Prop where
  provider : (v.field "provider").asText? = .ok m.provider
  model : (v.field "model").asText? = .ok m.model
  temperature : (v.field "temperature").asReal? = .ok m.temperature
  maxTokens : (v.field "max_tokens").asInt? = m.maxTokens
  baseUrl : (v.field "base_url").asText? = .ok m.baseUrl
  apiKey : (v.field "api_key").asText? = .ok m.apiKey
  timeout : (v.field "request_timeout").asReal? = .ok m.timeout

theorem withModel_eq_ok (h : withModel v s = .ok s') :
    (v.isSubstantial = false ∧ s' = s) ∨
      ∃ m, ReadsModel v m ∧ s' = { s with model := if m.isSubstantial then some m else none } := by
  unfold withModel at h
  split at h
  · rename_i hempty
    cases h
    exact .inl ⟨by simpa using hempty, rfl⟩
  · obtain ⟨provider, hprovider, h⟩ := bind_eq_ok.1 h
    obtain ⟨model, hmodel, h⟩ := bind_eq_ok.1 h
    obtain ⟨temperature, htemperature, h⟩ := bind_eq_ok.1 h
    obtain ⟨baseUrl, hbaseUrl, h⟩ := bind_eq_ok.1 h
    obtain ⟨apiKey, hapiKey, h⟩ := bind_eq_ok.1 h
    obtain ⟨timeout, htimeout, h⟩ := bind_eq_ok.1 h
    cases h
    exact .inr ⟨_, ⟨hprovider, hmodel, htemperature, rfl, hbaseUrl, hapiKey, htimeout⟩, rfl⟩

theorem withModel_eq (h : withModel v s = .ok s') : ∃ model, s' = { s with model } := by
  obtain ⟨-, rfl⟩ | ⟨m, -, rfl⟩ := withModel_eq_ok h
  · exact ⟨_, rfl⟩
  · exact ⟨_, rfl⟩

/-- A part on the output that is taken up names a format, or leaves the one that is there. -/
theorem withOutput_eq (h : withOutput v s = .ok s') : ∃ output, s' = { s with output } ∧
    ((Format.ofName? s.output.format).isSome → (Format.ofName? output.format).isSome) := by
  unfold withOutput at h
  split at h
  · cases h
    exact ⟨_, rfl, id⟩
  · obtain ⟨format, -, h⟩ := bind_eq_ok.1 h
    dsimp only at h
    split at h
    · cases h
    · rename_i hformat
      obtain ⟨folder, -, h⟩ := bind_eq_ok.1 h
      obtain ⟨filename, -, h⟩ := bind_eq_ok.1 h
      cases h
      exact ⟨_, rfl, fun _ => by simpa [Option.isSome_iff_ne_none] using hformat⟩

theorem ofDocument_parts {root name : String} {extra : List String}
    (h : ofDocument root name extra v = .ok s) : ∃ analysis added kept output audit,
      withAnalysis (v.field "analysis").orEmptyMap { root } = .ok analysis ∧
      (v.field "ignore").asTexts = .ok added ∧
      withModel (v.field "llm").orEmptyMap
        { analysis with ignores := analysis.ignores ++ added ++ extra } = .ok kept ∧
      (Format.ofName? output.format).isSome ∧ s = { kept with output, audit } := by
  have hmap : ∃ entries, v = .map entries := by
    cases v with
    | map entries => exact ⟨entries, rfl⟩
    | _ => cases h
  obtain ⟨entries, rfl⟩ := hmap
  unfold ofDocument at h
  obtain ⟨analysis, hanalysis, h⟩ := bind_eq_ok.1 h
  obtain ⟨added, hadded, h⟩ := bind_eq_ok.1 h
  obtain ⟨kept, hmodel, h⟩ := bind_eq_ok.1 h
  obtain ⟨withoutAudit, houtput, h⟩ := bind_eq_ok.1 h
  obtain ⟨audit, -, h⟩ := bind_eq_ok.1 h
  obtain ⟨output, rfl, hformat⟩ := withOutput_eq houtput
  cases h
  have hkept : kept.output = {} := by
    obtain ⟨model, rfl⟩ := withModel_eq hmodel
    exact (withAnalysis_keeps hanalysis).2.2
  refine ⟨analysis, added, kept, output, _, hanalysis, hadded, hmodel, hformat ?_, rfl⟩
  rw [hkept]
  rfl

/-- What a document leaves of the folder of the settings and of the ignore file. -/
theorem ofDocument_eq_ok {root name : String} {extra : List String}
    (h : ofDocument root name extra v = .ok s) :
    s.root = root ∧ ∃ own added, (v.field "ignore").asTexts = .ok added ∧
      s.ignores = own ++ added ++ extra := by
  obtain ⟨analysis, added, kept, output, audit, hanalysis, hadded, hmodel, -, rfl⟩ :=
    ofDocument_parts h
  obtain ⟨model, rfl⟩ := withModel_eq hmodel
  exact ⟨(withAnalysis_keeps hanalysis).1, analysis.ignores, added, hadded, rfl⟩

theorem field_orEmptyMap (v : Value) (name : String) : v.orEmptyMap.field name = v.field name := by
  cases v <;> rfl

theorem field_of_insubstantial (h : v.orEmptyMap.isSubstantial = false) (name : String) :
    v.field name = .null := by
  cases v with
  | map entries =>
    cases entries with
    | nil => rfl
    | cons e es => cases h
  | _ => rfl

theorem readsModel_of_empty (h : v.orEmptyMap.isSubstantial = false) : ReadsModel v {} := by
  have hfield := field_of_insubstantial h
  constructor
  all_goals
    rw [hfield]
    rfl

/-- What a document says of the model is kept if some setting in it stands for something. -/
theorem model_of_ofDocument {root name : String} {extra : List String}
    (h : ofDocument root name extra v = .ok s) :
    ∃ m, ReadsModel (v.field "llm") m ∧ s.model = if m.isSubstantial then some m else none := by
  obtain ⟨analysis, added, kept, output, audit, hanalysis, -, hmodel, -, rfl⟩ :=
    ofDocument_parts h
  obtain ⟨hempty, rfl⟩ | ⟨m, hreads, rfl⟩ := withModel_eq_ok hmodel
  · exact ⟨{}, readsModel_of_empty hempty, (withAnalysis_keeps hanalysis).2.1⟩
  · refine ⟨m, ?_, rfl⟩
    obtain ⟨h₁, h₂, h₃, h₄, h₅, h₆, h₇⟩ := hreads
    simp only [field_orEmptyMap] at h₁ h₂ h₃ h₄ h₅ h₆ h₇
    exact ⟨h₁, h₂, h₃, h₄, h₅, h₆, h₇⟩

end

/-! ## Loading -/

variable {site : Site} {path : String} {settings : Settings}

section
variable [Yaml.Library]

/-- The settings file that a path means is there and holds the document. -/
def Holds (site : Site) (path : String) (v : Value) : Prop :=
  ∃ found, file site path = .ok found ∧ site.has found = .ok true ∧ document site found = .ok v

/-- Settings that were loaded come from a document, or there is no file and they are defaults. -/
theorem load_eq_ok (h : load site path = .ok settings) : ∃ found extra,
    file site path = .ok found ∧ site.resolve (Path.parent found) = .ok settings.root ∧
      loadIgnores site settings.root = .ok extra ∧
      ((site.has found = .ok false ∧
          settings = { root := settings.root, ignores := defaultIgnores ++ extra }) ∨
        ∃ v, site.has found = .ok true ∧ document site found = .ok v ∧
          ofDocument settings.root (Path.name found) extra v = .ok settings) := by
  unfold load at h
  obtain ⟨found, hfile, h⟩ := bind_eq_ok.1 h
  obtain ⟨root, hroot, h⟩ := bind_eq_ok.1 h
  obtain ⟨extra, hextra, h⟩ := bind_eq_ok.1 h
  obtain ⟨there, hthere, h⟩ := bind_eq_ok.1 h
  rw [mapError_eq_ok] at hfile hroot hthere
  cases there with
  | false =>
    cases h
    exact ⟨found, extra, hfile, hroot, hextra, .inl ⟨hthere, rfl⟩⟩
  | true =>
    obtain ⟨v, hv, h⟩ := bind_eq_ok.1 h
    obtain ⟨rfl, -⟩ := ofDocument_eq_ok h
    exact ⟨found, extra, hfile, hroot, hextra, .inr ⟨v, hthere, hv, h⟩⟩

/-- There are no settings for a path; `extra` are the patterns of the ignore file where they would
be. -/
def Unset (site : Site) (path : String) (extra : List String) : Prop :=
  ∃ found root, file site path = .ok found ∧ site.has found = .ok false ∧
    site.resolve (Path.parent found) = .ok root ∧ loadIgnores site root = .ok extra

theorem Unset.load {extra : List String} (h : Unset site path extra) :
    ∃ root, load site path = .ok { root, ignores := defaultIgnores ++ extra } := by
  obtain ⟨found, root, hfile, hthere, hroot, hextra⟩ := h
  refine ⟨root, ?_⟩
  simp only [Settings.load, hfile, hroot, hextra, hthere, Except.mapError, bind, Except.bind,
    Bool.false_eq_true, if_false]
  rfl

theorem model_of_load (h : load site path = .ok settings) {v : Value} (hv : Holds site path v) :
    ∃ m, ReadsModel (v.field "llm") m ∧
      settings.model = if m.isSubstantial then some m else none := by
  obtain ⟨found, hfile, hthere, hdocument⟩ := hv
  obtain ⟨found', extra, hfile', -, -, hcase⟩ := load_eq_ok h
  cases hfile.symm.trans hfile'
  obtain ⟨hmissing, -⟩ | ⟨v', -, hdocument', hread⟩ := hcase
  · cases hthere.symm.trans hmissing
  · cases hdocument.symm.trans hdocument'
    exact model_of_ofDocument hread

theorem format_of_load (h : load site path = .ok settings) :
    (Format.ofName? settings.output.format).isSome := by
  obtain ⟨found, extra, -, -, -, ⟨-, e⟩ | ⟨v, -, -, hread⟩⟩ := load_eq_ok h
  · rw [e]
    rfl
  · obtain ⟨_, _, _, _, _, -, -, -, hformat, e⟩ := ofDocument_parts hread
    rw [e]
    exact hformat

end

/-! ## Patterns in force -/

theorem hasFile_of_readText {text : String} (h : site.readText path = .ok text) :
    site.hasFile path = .ok true := by
  unfold Site.readText Site.read at h
  cases hloc : site.locate path with
  | error f => rw [hloc] at h; cases h
  | ok place =>
    obtain ⟨parts, n⟩ := place
    rw [hloc] at h
    cases n with
    | file => rw [Site.hasFile, Site.find?, hloc]; rfl
    | folder => cases h
    | link => cases h

theorem loadIgnores_of_readText {folder text : String}
    (h : site.readText (Path.join folder ignoreFileName) = .ok text) :
    loadIgnores site folder = .ok (ignoreLines text) := by
  simp only [loadIgnores, hasFile_of_readText h, h]
  rfl

theorem ignoreLines_subset [Yaml.Library] (h : load site path = .ok settings) {text : String}
    (htext : site.readText (Path.join settings.root ignoreFileName) = .ok text) :
    ignoreLines text ⊆ settings.ignores := by
  obtain ⟨found, extra, -, -, hextra, hcase⟩ := load_eq_ok h
  cases (loadIgnores_of_readText htext).symm.trans hextra
  obtain ⟨-, hdefaults⟩ | ⟨v, -, -, hdocument⟩ := hcase
  · rw [hdefaults]
    exact List.subset_append_right _ _
  · obtain ⟨-, own, added, -, hignores⟩ := ofDocument_eq_ok hdocument
    rw [hignores]
    exact List.subset_append_right _ _

theorem added_subset [Yaml.Library] (h : load site path = .ok settings) {found : String} {v : Value}
    {added : List String} (hfile : file site path = .ok found)
    (hthere : site.has found = .ok true) (hv : document site found = .ok v)
    (hadded : (v.field "ignore").asTexts = .ok added) : added ⊆ settings.ignores := by
  obtain ⟨found', extra, hfile', -, -, hcase⟩ := load_eq_ok h
  cases hfile.symm.trans hfile'
  obtain ⟨hmissing, -⟩ | ⟨v', -, hv', hdocument⟩ := hcase
  · cases hthere.symm.trans hmissing
  · cases hv.symm.trans hv'
    obtain ⟨-, own, added', hadded', hignores⟩ := ofDocument_eq_ok hdocument
    cases hadded.symm.trans hadded'
    rw [hignores]
    exact List.Subset.trans (List.subset_append_right _ _) (List.subset_append_left _ _)

/-! ## File systems that look alike -/

section
variable {d' : Disk} {free : List String → Prop} (h : site.disk.Alike free d')
include h

theorem file_on (path : String) : file (site.on d') path = file site path := by
  unfold file
  simp only [Site.hasFolder_on h, Site.resolve_on h]
  rfl

theorem loadIgnores_on {folder : String}
    (hread : (site.on d').read (Path.join folder ignoreFileName) =
      site.read (Path.join folder ignoreFileName)) :
    loadIgnores (site.on d') folder = loadIgnores site folder := by
  simp only [loadIgnores, Site.hasFile_on h, Site.readText_on hread]

/-- Settings are loaded alike where the settings file and the ignore file hold the same. -/
theorem load_on [Yaml.Library] (hload : load site path = .ok settings)
    (hfile : ∀ found, file site path = .ok found → (site.on d').read found = site.read found)
    (hignore : (site.on d').read (Path.join settings.root ignoreFileName) =
      site.read (Path.join settings.root ignoreFileName)) :
    load (site.on d') path = .ok settings := by
  obtain ⟨found, extra, hfound, hroot, hextra, -⟩ := load_eq_ok hload
  have hdocument : document (site.on d') found = document site found := by
    rw [document, document, Site.readText_on (hfile found hfound)]
  rw [← hload]
  simp only [load, file_on h, hfound, Site.resolve_on h, hroot, Site.has_on h, hdocument,
    Except.mapError, bind, Except.bind, loadIgnores_on h hignore]

end

end Settings

end PerfReview
