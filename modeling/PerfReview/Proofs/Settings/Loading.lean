import PerfReview.Proofs.Settings.Limits
import PerfReview.Standard

/-!
# Which settings load

Loading says itself that the settings are malformed or no map, and that limits or a format are
refused. All other faults come through from what loading is built on. Those that a document can
bring about are integers that are too large for what is read in their place; one that stands behind
a refusal is never read.
-/

namespace PerfReview

namespace Value

variable {v : Value}

/-- An integer in the place of a text can be written. -/
def Legible (v : Value) : Prop := ∀ n, v = .int n → n.natAbs < 10 ^ Number.maxDigits

/-- The integers of a list of texts can be written. -/
def LegibleItems (v : Value) : Prop := ∀ items, v = .list items → ∀ item ∈ items, item.Legible

@[simp] theorem legible_null : Legible .null := fun _ h => nomatch h

@[simp] theorem legibleItems_null : LegibleItems .null := fun _ h => nomatch h

theorem asText?_failsOnly : FailsOnly (fun f => !f.isOwn) v.asText? := by
  unfold asText?
  split
  any_goals split
  all_goals simp [SettingsFault.isOwn]

theorem exists_asText?_iff : (∃ s, v.asText? = .ok s) ↔ v.Legible := by
  unfold asText? Legible
  cases v with
  | int n =>
    simp only [isUnwritable, Nat.pow_eq, decide_eq_true_eq, int.injEq, forall_eq']
    split <;> simp_all
  | _ => simp [isUnwritable]

theorem asTexts_failsOnly : FailsOnly (fun f => !f.isOwn) v.asTexts := by
  unfold asTexts
  split
  · simp
  · exact failsOnly_filterMapM fun item _ => asText?_failsOnly
  · simp
  · simp

theorem exists_asTexts_iff : (∃ ts, v.asTexts = .ok ts) ↔ v.LegibleItems := by
  unfold asTexts LegibleItems
  cases v with
  | list items =>
    simp only [list.injEq, forall_eq', ← exists_asText?_iff]
    exact exists_filterMapM_iff
  | _ => simp

end Value

namespace Settings

open Value (Legible InRange LegibleItems legible_null inRange_null legibleItems_null)

variable {v : Value}

/-! ## Parts of a document -/

/-- The part on the output names a format, or leaves it open. -/
def NamesFormat (v : Value) : Prop :=
  ∃ given, (v.field "format").asText? = .ok given ∧
    (Format.ofName? (Text.small ((Text.filled given).getD ({} : Output).format))).isSome = true

/-- The part on the model can be read. -/
structure ModelReadable (v : Value) : Prop where
  provider : Legible (v.field "provider")
  model : Legible (v.field "model")
  temperature : InRange (v.field "temperature")
  baseUrl : Legible (v.field "base_url")
  apiKey : Legible (v.field "api_key")
  timeout : InRange (v.field "request_timeout")

/-- The part on the output of a document and its file of audit findings can be read, as far as there
is a format. -/
structure OutputReadable (v : Value) : Prop where
  format : Legible ((v.field "output").field "format")
  folder : NamesFormat (v.field "output") → Legible ((v.field "output").field "directory")
  filename : NamesFormat (v.field "output") → Legible ((v.field "output").field "filename")
  audit : NamesFormat (v.field "output") → Legible (v.field "audit_context")

/-- The integers of a document can be taken for what is read in their place, as far as the document
is read: up to a count or a delay that limits refuse, or a format that there is not. -/
structure Digestible (v : Value) : Prop where
  target : Legible ((v.field "analysis").field "target_dir")
  delay : InRange ((v.field "analysis").field "batch_delay")
  refused : ∀ n, firstRefused (v.field "analysis") = some n →
    n.natAbs < 10 ^ Number.maxDigits
  includes : Accepts (v.field "analysis") → LegibleItems ((v.field "analysis").field "include")
  ignores : Accepts (v.field "analysis") → LegibleItems ((v.field "analysis").field "ignore")
  added : Accepts (v.field "analysis") → LegibleItems (v.field "ignore")
  model : Accepts (v.field "analysis") → ModelReadable (v.field "llm")
  output : Accepts (v.field "analysis") → OutputReadable v

variable {s : Settings}

@[simp] theorem firstRefused_orEmptyMap : firstRefused v.orEmptyMap = firstRefused v := by
  unfold firstRefused refused
  simp only [field_orEmptyMap]

@[simp] theorem accepts_orEmptyMap : Accepts v.orEmptyMap ↔ Accepts v := by
  unfold Accepts
  rw [firstRefused_orEmptyMap, field_orEmptyMap]

theorem accepts_of_insubstantial (h : v.orEmptyMap.isSubstantial = false) :
    firstRefused v = none ∧ Accepts v := by
  have hfield := field_of_insubstantial h
  have hn : firstRefused v = none := by
    simp [firstRefused, countNames, refused, hfield, Value.asInt?]
  exact ⟨hn, hn, by simp [hfield, Value.asReal?]⟩

section
variable (hl : s.limits.batchDelay.isNegative = false)
include hl

theorem exists_withAnalysis_iff : (∃ s', withAnalysis v.orEmptyMap s = .ok s') ↔
    Legible (v.field "target_dir") ∧ (InRange (v.field "batch_delay") ∧ Accepts v) ∧
      LegibleItems (v.field "include") ∧ LegibleItems (v.field "ignore") := by
  unfold withAnalysis
  cases h : v.orEmptyMap.isSubstantial with
  | false =>
    have hfield := field_of_insubstantial h
    rw [hfield, hfield, hfield, hfield]
    exact iff_of_true ⟨s, rfl⟩ ⟨legible_null, ⟨inRange_null, (accepts_of_insubstantial h).2⟩,
      legibleItems_null, legibleItems_null⟩
  | true =>
    simp only [Bool.not_true, Bool.false_eq_true, if_false, field_orEmptyMap]
    rw [exists_bind_iff fun _ => exists_bind_iff fun _ => exists_bind_iff fun _ =>
      exists_bind_iff fun _ => iff_true_intro ⟨_, rfl⟩]
    simp only [Value.exists_asText?_iff, exists_limitsOf_iff hl, Value.exists_asTexts_iff,
      field_orEmptyMap, accepts_orEmptyMap, and_true]

theorem withAnalysis_failsOnly_iff :
    FailsOnly SettingsFault.isOwn (withAnalysis v.orEmptyMap s) ↔
      Legible (v.field "target_dir") ∧
        (InRange (v.field "batch_delay") ∧
          ∀ n, firstRefused v = some n → n.natAbs < 10 ^ Number.maxDigits) ∧
        (InRange (v.field "batch_delay") ∧ Accepts v →
          LegibleItems (v.field "include") ∧ LegibleItems (v.field "ignore")) := by
  unfold withAnalysis
  cases h : v.orEmptyMap.isSubstantial with
  | false =>
    have hfield := field_of_insubstantial h
    have hn := (accepts_of_insubstantial h).1
    rw [hfield, hfield, hfield, hfield, hn]
    exact iff_of_true (failsOnly_pure s) ⟨legible_null, ⟨inRange_null, by simp⟩,
      fun _ => ⟨legibleItems_null, legibleItems_null⟩⟩
  | true =>
    simp only [Bool.not_true, Bool.false_eq_true, if_false, field_orEmptyMap]
    rw [failsOnly_bind_iff_exists Value.asText?_failsOnly fun _ => failsOnly_bind_iff fun _ =>
      failsOnly_bind_iff_exists Value.asTexts_failsOnly fun _ =>
        (failsOnly_bind_of_ok fun _ => failsOnly_pure _).trans
          (failsOnly_iff_exists Value.asTexts_failsOnly)]
    simp only [Value.exists_asText?_iff, exists_limitsOf_iff hl, limitsOf_failsOnly_iff hl,
      Value.exists_asTexts_iff, field_orEmptyMap, accepts_orEmptyMap, firstRefused_orEmptyMap]

end

theorem withModel_failsOnly : FailsOnly (fun f => !f.isOwn) (withModel v s) := by
  unfold withModel
  split
  · exact failsOnly_pure s
  · simp [failsOnly_bind, Value.asText?_failsOnly, Value.asReal?_failsOnly, failsOnly_functor_map]

theorem exists_withModel_iff :
    (∃ s', withModel v.orEmptyMap s = .ok s') ↔ ModelReadable v := by
  unfold withModel
  cases h : v.orEmptyMap.isSubstantial with
  | false =>
    have hfield := field_of_insubstantial h
    refine iff_of_true ⟨s, rfl⟩ ?_
    constructor <;> simp [hfield]
  | true =>
    simp only [Bool.not_true, Bool.false_eq_true, if_false, field_orEmptyMap]
    rw [exists_bind_iff fun _ => exists_bind_iff fun _ => exists_bind_iff fun _ =>
      exists_bind_iff fun _ => exists_bind_iff fun _ => exists_bind_iff fun _ =>
      iff_true_intro ⟨_, rfl⟩]
    simp only [Value.exists_asText?_iff, Value.exists_asReal?_iff, and_true]
    exact ⟨fun ⟨h₁, h₂, h₃, h₄, h₅, h₆⟩ => ⟨h₁, h₂, h₃, h₄, h₅, h₆⟩,
      fun ⟨h₁, h₂, h₃, h₄, h₅, h₆⟩ => ⟨h₁, h₂, h₃, h₄, h₅, h₆⟩⟩

theorem namesFormat_iff {given : Option String} (h : (v.field "format").asText? = .ok given) :
    NamesFormat v ↔
      (Format.ofName? (Text.small ((Text.filled given).getD ({} : Output).format))).isSome =
        true := by
  simp [NamesFormat, h]

theorem namesFormat_of_insubstantial (h : v.orEmptyMap.isSubstantial = false) : NamesFormat v :=
  ⟨none, by rw [field_of_insubstantial h]; rfl, rfl⟩

theorem withOutput_of_insubstantial (h : v.orEmptyMap.isSubstantial = false) :
    withOutput v.orEmptyMap s = .ok s := by
  unfold withOutput
  rw [h]
  rfl

theorem withOutput_eq_bind (hs : s.output = {}) (h : v.orEmptyMap.isSubstantial = true) :
    withOutput v.orEmptyMap s = (do
      let given ← (v.field "format").asText?
      let format := Text.small ((Text.filled given).getD ({} : Output).format)
      if (Format.ofName? format).isNone then throw (.format format)
      let folder ← (v.field "directory").asText?
      let filename ← (v.field "filename").asText?
      return { s with output := {
        format, folder
        filename := (Text.filled filename).getD s.output.filename
        stamped := (v.field "include_timestamp").asBool?.getD s.output.stamped } }) := by
  unfold withOutput
  simp only [h, hs, Bool.not_true, Bool.false_eq_true, if_false, field_orEmptyMap]

theorem withOutput_failsOnly_iff (hs : s.output = {}) :
    FailsOnly SettingsFault.isOwn (withOutput v.orEmptyMap s) ↔ Legible (v.field "format") ∧
      (NamesFormat v → Legible (v.field "directory") ∧ Legible (v.field "filename")) := by
  cases h : v.orEmptyMap.isSubstantial with
  | false =>
    have hfield := field_of_insubstantial h
    rw [withOutput_of_insubstantial h, hfield, hfield, hfield]
    exact iff_of_true (failsOnly_ok s) ⟨legible_null, fun _ => ⟨legible_null, legible_null⟩⟩
  | true =>
    rw [withOutput_eq_bind hs h, failsOnly_bind, failsOnly_iff_exists Value.asText?_failsOnly,
      Value.exists_asText?_iff]
    refine and_congr_right fun hlegible => ?_
    obtain ⟨given, hgiven⟩ := Value.exists_asText?_iff.2 hlegible
    rw [hgiven, namesFormat_iff hgiven]
    simp only [Except.ok.injEq, forall_eq']
    cases hname : Format.ofName? (Text.small ((Text.filled given).getD ({} : Output).format)) with
    | none => simp [SettingsFault.isOwn]
    | some format =>
      simp only [Option.isNone_some, Bool.false_eq_true, if_false, Option.isSome_some, true_imp_iff]
      rw [failsOnly_bind_iff_exists Value.asText?_failsOnly fun _ =>
        (failsOnly_bind_of_ok fun _ => failsOnly_pure _).trans
          (failsOnly_iff_exists Value.asText?_failsOnly)]
      simp only [Value.exists_asText?_iff]

theorem exists_withOutput_iff (hs : s.output = {}) :
    (∃ s', withOutput v.orEmptyMap s = .ok s') ↔ NamesFormat v ∧
      Legible (v.field "directory") ∧ Legible (v.field "filename") := by
  cases h : v.orEmptyMap.isSubstantial with
  | false =>
    have hfield := field_of_insubstantial h
    rw [withOutput_of_insubstantial h, hfield, hfield]
    exact iff_of_true ⟨s, rfl⟩ ⟨namesFormat_of_insubstantial h, legible_null, legible_null⟩
  | true =>
    rw [withOutput_eq_bind hs h]
    cases hgiven : (v.field "format").asText? with
    | error f =>
      refine iff_of_false (by simp [bind, Except.bind]) fun hname => ?_
      simp [NamesFormat, hgiven] at hname
    | ok given =>
      rw [namesFormat_iff hgiven, ok_bind]
      cases hname : Format.ofName? (Text.small ((Text.filled given).getD ({} : Output).format)) with
      | none => exact iff_of_false (by simp [hname]) fun hall => nomatch hall.1
      | some format =>
        simp only [hname, Option.isNone_some, Bool.false_eq_true, if_false, Option.isSome_some,
          true_and]
        rw [exists_bind_iff fun _ => exists_bind_iff fun _ => iff_true_intro ⟨_, rfl⟩]
        simp only [Value.exists_asText?_iff, and_true]

variable {root name : String} {extra : List String}

theorem failsOnly_outputOn_iff (hs : s.output = {}) : FailsOnly SettingsFault.isOwn (do
      let s ← withOutput (v.field "output").orEmptyMap s
      let audit ← (v.field "audit_context").asText?
      return { s with audit := (Text.filled audit).map (Path.join root) }) ↔ OutputReadable v := by
  rw [failsOnly_bind_iff fun _ => (failsOnly_bind_of_ok fun _ => failsOnly_pure _).trans
      (failsOnly_iff_exists Value.asText?_failsOnly),
    withOutput_failsOnly_iff hs, exists_withOutput_iff hs, Value.exists_asText?_iff]
  constructor
  · rintro ⟨⟨hformat, hnamed⟩, haudit⟩
    exact ⟨hformat, fun h => (hnamed h).1, fun h => (hnamed h).2, fun h => haudit ⟨h, hnamed h⟩⟩
  · rintro ⟨hformat, hfolder, hfilename, haudit⟩
    exact ⟨⟨hformat, fun h => ⟨hfolder h, hfilename h⟩⟩, fun h => haudit h.1⟩

theorem failsOnly_modelOn_iff (hs : s.output = {}) : FailsOnly SettingsFault.isOwn (do
      let s ← withModel (v.field "llm").orEmptyMap s
      let s ← withOutput (v.field "output").orEmptyMap s
      let audit ← (v.field "audit_context").asText?
      return { s with audit := (Text.filled audit).map (Path.join root) }) ↔
    ModelReadable (v.field "llm") ∧ OutputReadable v := by
  rw [failsOnly_bind, failsOnly_iff_exists withModel_failsOnly, exists_withModel_iff]
  refine and_congr_right fun hmodel => ?_
  obtain ⟨kept, hkept⟩ := exists_withModel_iff.2 hmodel
  rw [hkept]
  simp only [Except.ok.injEq, forall_eq']
  obtain ⟨model, rfl⟩ := withModel_eq hkept
  exact failsOnly_outputOn_iff hs

theorem failsOnly_ignoresOn_iff (hs : s.output = {}) : FailsOnly SettingsFault.isOwn (do
      let added ← (v.field "ignore").asTexts
      let s ← withModel (v.field "llm").orEmptyMap { s with ignores := s.ignores ++ added ++ extra }
      let s ← withOutput (v.field "output").orEmptyMap s
      let audit ← (v.field "audit_context").asText?
      return { s with audit := (Text.filled audit).map (Path.join root) }) ↔
    LegibleItems (v.field "ignore") ∧ ModelReadable (v.field "llm") ∧ OutputReadable v := by
  rw [← Value.exists_asTexts_iff]
  exact failsOnly_bind_iff_exists Value.asTexts_failsOnly fun _ => failsOnly_modelOn_iff hs

theorem ofDocument_eq_bind {entries : List (Value × Value)} (hv : v = .map entries) :
    ofDocument root name extra v = (do
      let s ← withAnalysis (v.field "analysis").orEmptyMap { root }
      let added ← (v.field "ignore").asTexts
      let s ← withModel (v.field "llm").orEmptyMap { s with ignores := s.ignores ++ added ++ extra }
      let s ← withOutput (v.field "output").orEmptyMap s
      let audit ← (v.field "audit_context").asText?
      return { s with audit := (Text.filled audit).map (Path.join root) }) := by
  rw [hv]
  rfl

/-- A document without fields is read as far as there is anything to read. -/
theorem digestible_of_fieldless (h : ∀ name, v.field name = .null) : Digestible v := by
  have hinner : ∀ name, Value.null.field name = .null := fun _ => rfl
  have hnone : firstRefused .null = none := by
    simp [firstRefused, countNames, refused, hinner, Value.asInt?]
  have hmodel : ModelReadable .null := by
    constructor <;> simp [hinner]
  have houtput : OutputReadable v := by
    constructor <;> simp [hinner, h]
  constructor <;> simp [hinner, h, hnone, hmodel, houtput]

/-- Reading a map fails with no fault but an own one exactly if the map is digestible. -/
theorem ofDocument_map_failsOnly_iff {entries : List (Value × Value)} (hv : v = .map entries) :
    FailsOnly SettingsFault.isOwn (ofDocument root name extra v) ↔ Digestible v := by
  have hl : ({ root } : Settings).limits.batchDelay.isNegative = false := rfl
  rw [ofDocument_eq_bind hv, failsOnly_bind, withAnalysis_failsOnly_iff hl]
  constructor
  · rintro ⟨⟨htarget, ⟨hdelay, hrefused⟩, hitems⟩, hrest⟩
    have hall : Accepts (v.field "analysis") → LegibleItems (v.field "ignore") ∧
        ModelReadable (v.field "llm") ∧ OutputReadable v := fun ha => by
      obtain ⟨s, hs⟩ := (exists_withAnalysis_iff hl).2
        ⟨htarget, ⟨hdelay, ha⟩, hitems ⟨hdelay, ha⟩⟩
      exact (failsOnly_ignoresOn_iff (withAnalysis_keeps hs).2.2).1 (hrest s hs)
    exact {
      target := htarget
      delay := hdelay
      refused := hrefused
      includes := fun ha => (hitems ⟨hdelay, ha⟩).1
      ignores := fun ha => (hitems ⟨hdelay, ha⟩).2
      added := fun ha => (hall ha).1
      model := fun ha => (hall ha).2.1
      output := fun ha => (hall ha).2.2 }
  · intro h
    refine ⟨⟨h.target, ⟨h.delay, h.refused⟩, fun ha => ⟨h.includes ha.2, h.ignores ha.2⟩⟩,
      fun s hs => (failsOnly_ignoresOn_iff (withAnalysis_keeps hs).2.2).2 ?_⟩
    have ha := ((exists_withAnalysis_iff hl).1 ⟨s, hs⟩).2.1.2
    exact ⟨h.added ha, h.model ha, h.output ha⟩

/-- Reading a document fails with no fault but an own one exactly if the document is digestible. -/
theorem ofDocument_failsOnly_iff :
    FailsOnly SettingsFault.isOwn (ofDocument root name extra v) ↔ Digestible v := by
  cases v with
  | map entries => exact ofDocument_map_failsOnly_iff rfl
  | _ => exact iff_of_true (failsOnly_error.2 rfl) (digestible_of_fieldless fun _ => rfl)

/-! ## Loading -/

/-- A text of settings is understood: it is blank or malformed, or the document that it writes is
digestible. -/
def Understood [Yaml.Library] (text : String) : Prop :=
  Text.isAllBlank text = true ∨ Yaml.Library.read text = .error .malformed ∨
    ∃ d, Yaml.Library.read text = .ok d ∧
      (d.isSubstantial d.root = true → Digestible (d.outline depth d.root))

/-- What loading needs: the paths can be used, the ignore file and the settings file are not there
or hold UTF-8, and the settings are understood. -/
def Loadable [Yaml.Library] (site : Site) (path : String) : Prop :=
  ∃ found root, file site path = .ok found ∧ site.resolve (Path.parent found) = .ok root ∧
    (site.hasFile (Path.join root ignoreFileName) = .ok false ∨
      ∃ text, site.readText (Path.join root ignoreFileName) = .ok text) ∧
    (site.has found = .ok false ∨ ∃ text, site.readText found = .ok text ∧ Understood text)

variable {site : Site} {path folder : String}

theorem loadIgnores_failsOnly : FailsOnly (fun f => !f.isOwn) (loadIgnores site folder) := by
  unfold loadIgnores
  rw [failsOnly_bind, failsOnly_mapError]
  refine ⟨fun _ _ => rfl, fun there _ => ?_⟩
  cases there with
  | false => exact failsOnly_pure []
  | true =>
    rw [if_pos rfl]
    split <;> simp [SettingsFault.isOwn]

theorem exists_loadIgnores_iff : (∃ patterns, loadIgnores site folder = .ok patterns) ↔
    site.hasFile (Path.join folder ignoreFileName) = .ok false ∨
      ∃ text, site.readText (Path.join folder ignoreFileName) = .ok text := by
  constructor
  · rintro ⟨patterns, h⟩
    obtain ⟨there, hthere, h⟩ := bind_eq_ok.1 h
    rw [mapError_eq_ok] at hthere
    cases there with
    | false => exact .inl hthere
    | true =>
      rw [if_pos rfl] at h
      split at h
      · rename_i text htext
        exact .inr ⟨text, htext⟩
      · cases h
      · cases h
  · rintro (h | ⟨text, h⟩)
    · exact ⟨[], by rw [loadIgnores, h]; rfl⟩
    · exact ⟨_, loadIgnores_of_readText h⟩

theorem has_of_readText {text : String} (h : site.readText path = .ok text) :
    site.has path = .ok true := by
  have hfile := hasFile_of_readText h
  unfold Site.hasFile Site.has at *
  cases hfind : site.find? path with
  | error f => rw [hfind] at hfile; cases hfile
  | ok found =>
    cases found with
    | none => rw [hfind] at hfile; cases hfile
    | some n => rfl

theorem unusable_failsOnly {α : Type} (x : Except PathFault α) :
    FailsOnly (fun f => !f.isOwn) (x.mapError SettingsFault.unusable) :=
  failsOnly_mapError.2 fun _ _ => rfl

section
variable [Yaml.Library]

/-- The document of the settings file is found, or loading says itself that it is malformed. -/
theorem document_failsOnly_iff {found : String} :
    (FailsOnly SettingsFault.isOwn (document site found) ∧
        ∀ v, document site found = .ok v → Digestible v) ↔
      ∃ text, site.readText found = .ok text ∧ Understood text := by
  unfold document Understood
  cases site.readText found with
  | error f => cases f <;> simp [SettingsFault.isOwn]
  | ok text =>
    have hempty : Digestible (.map []) := digestible_of_fieldless fun _ => rfl
    simp only [Except.ok.injEq, exists_eq_left']
    cases Text.isAllBlank text with
    | true => simp [hempty]
    | false =>
      cases Yaml.Library.read text with
      | error f => cases f <;> simp [SettingsFault.isOwn]
      | ok d => cases hd : d.isSubstantial d.root <;> simp [hd, hempty]

theorem load_failsOnly_iff :
    FailsOnly SettingsFault.isOwn (load site path) ↔ Loadable site path := by
  unfold load Loadable
  rw [failsOnly_bind_iff_and (unusable_failsOnly _)]
  refine exists_congr fun found => ?_
  rw [mapError_eq_ok, failsOnly_bind_iff_and (unusable_failsOnly _), ← exists_and_left]
  refine exists_congr fun root => and_congr_right fun _ => ?_
  rw [mapError_eq_ok, ← exists_loadIgnores_iff, failsOnly_bind_iff_and loadIgnores_failsOnly]
  refine and_congr_right fun _ => ?_
  rw [exists_and_right.symm]
  refine exists_congr fun extra => and_congr_right fun _ => ?_
  rw [failsOnly_bind_iff_and (unusable_failsOnly _)]
  simp only [mapError_eq_ok]
  constructor
  · rintro ⟨there, hthere, h⟩
    cases there with
    | false => exact .inl hthere
    | true =>
      rw [if_pos rfl, failsOnly_bind] at h
      exact .inr (document_failsOnly_iff.1
        ⟨h.1, fun v hv => ofDocument_failsOnly_iff.1 (h.2 v hv)⟩)
  · rintro (hthere | ⟨text, htext, h⟩)
    · exact ⟨false, hthere, failsOnly_pure _⟩
    · refine ⟨true, has_of_readText htext, ?_⟩
      obtain ⟨hdocument, hdigestible⟩ := document_failsOnly_iff.2 ⟨text, htext, h⟩
      rw [if_pos rfl, failsOnly_bind]
      exact ⟨hdocument, fun v hv => ofDocument_failsOnly_iff.2 (hdigestible v hv)⟩

/-- Loading gives settings under which a plan can be made, or says itself why there are none,
exactly if it has what it needs. -/
theorem load_settled_iff (site : Site) (path : String) :
    ((∃ s, load site path = .ok s ∧ s.limits.bounds.Usable) ∨
        ∃ f, load site path = .error f ∧ f.isOwn = true) ↔ Loadable site path := by
  simp only [Limits.bounds_usable, and_true]
  rw [← failsOnly_iff, load_failsOnly_iff]

end

namespace Sample

/-- A folder with the bytes of a settings file. -/
def settingsSite (bytes : List UInt8) : Site where
  disk := ⟨.folder [("p", .folder [(Settings.fileName, .file bytes 0o644)])]⟩
  working := "/"
  home := "/"

end Sample

/-- A settings file that is not UTF-8 gives no settings, and loading does not say itself why. -/
theorem not_settled_undecodable :
    ¬((∃ s, load (Sample.settingsSite [0xFF]) "/p" = .ok s ∧ s.limits.bounds.Usable) ∨
      ∃ f, load (Sample.settingsSite [0xFF]) "/p" = .error f ∧ f.isOwn = true) := by
  simp only [Limits.bounds_usable, and_true]
  rw [← failsOnly_iff]
  decide +kernel

end Settings

end PerfReview
