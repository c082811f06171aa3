import PerfReview.Client
import PerfReview.Proofs.Faults
import PerfReview.Proofs.Settings
import PerfReview.Standard

/-!
# Where the settings of a client come from

For each setting of a client several sources are asked in turn: what is given for this run, the
settings file, the environment, for the key also the stored keys, and last a default. What a file
says of a setting is looked up in its document alone, apart from how settings are read. An override
that is empty hides the value of the file. The part on the model is left aside as a whole if nothing
in it stands for something; a number given as zero is then lost. No value of the file gets lost
otherwise.
-/

namespace PerfReview

/-- What a document says of one setting. -/
inductive Given (α : Type) where
  | omitted
  | value (a : α)
  /-- Something that is no value of the setting. -/
  | other

namespace Given

variable {α β : Type}

def map (f : α → β) : Given α → Given β
  | omitted => omitted
  | value a => value (f a)
  | other => other

def ofText : Value → Given String
  | .null => .omitted
  | .text s => if s = "" then .other else .value s
  | _ => .other

/-- A finite number; an integer stands for the nearest one. -/
def ofNumber : Value → Given Number.Binary64
  | .null => .omitted
  | .int n =>
    match Number.Binary64.ofInt? n with
    | some x => .value x
    | none => .other
  | .float (.finite s m e) => .value (.finite s m e)
  | _ => .other

def ofCount : Value → Given Int
  | .null => .omitted
  | .int n => .value n
  | _ => .other

/-- The setting has what comes first: a value that wins over the file, the value of the file, or,
where the file omits it, what the rest gives. -/
def Settles (given : Option α) (file : Given α) (rest : α → Prop) (got : α) : Prop :=
  match given, file with
  | some a, _ => got = a
  | none, .value a => got = a
  | none, .omitted => rest got
  | none, .other => True

/-- The setting was read as the document says. -/
def ReadAs (file : Given α) (read : Option α) : Prop :=
  match file with
  | .omitted => read = none
  | .value a => read = some a
  | .other => True

theorem readAs_ofText {v : Value} {read : Option String} (h : v.asText? = .ok read) :
    (ofText v).ReadAs read := by
  unfold ofText
  split
  · cases h
    rfl
  · split
    · trivial
    · cases h
      rfl
  · trivial

theorem readAs_ofNumber {v : Value} {read : Option Number.Binary64} (h : v.asReal? = .ok read) :
    (ofNumber v).ReadAs read := by
  unfold ofNumber
  split
  · cases h
    rfl
  · rename_i n
    cases hn : Number.Binary64.ofInt? n with
    | none => trivial
    | some x =>
      rw [Value.asReal?, hn] at h
      cases h
      rfl
  · cases h
    rfl
  · trivial

theorem readAs_ofCount (v : Value) : (ofCount v).ReadAs v.asInt? := by
  unfold ofCount
  split <;> first | rfl | trivial

theorem ReadAs.map {file : Given α} {read : Option α} (h : file.ReadAs read) (f : α → β) :
    (file.map f).ReadAs (read.map f) := by
  cases file with
  | omitted => exact congrArg (Option.map f) h
  | value a => exact congrArg (Option.map f) h
  | other => trivial

/-- A setting without a value may be taken for one that was not read. -/
theorem ReadAs.none_of_no_value {file : Given α} (h : ∀ a, file ≠ .value a) : file.ReadAs none := by
  cases file with
  | omitted => rfl
  | value a => exact absurd rfl (h a)
  | other => trivial

theorem ReadAs.settles {file : Given α} {read : Option α} {rest : α → Prop} {got : α}
    (h : file.ReadAs read) (hsome : ∀ a, read = some a → got = a) (hnone : read = none → rest got) :
    file.Settles none rest got := by
  cases file with
  | omitted => exact hnone h
  | value a => exact hsome a h
  | other => trivial

theorem ReadAs.settles_getD {file : Given α} {read : Option α} (h : file.ReadAs read) (default : α) :
    file.Settles none (· = default) (read.getD default) :=
  h.settles (fun _ e => congrArg (Option.getD · default) e)
    fun e => congrArg (Option.getD · default) e

theorem ne_empty_of_ofText {v : Value} {s : String} (h : ofText v = .value s) : s ≠ "" := by
  unfold ofText at h
  split at h
  · cases h
  · split at h
    · cases h
    · rename_i hne
      cases h
      exact hne
  · cases h

/-- A text that was read as an empty one may be taken for one that was not read. -/
theorem ReadAs.none_of_empty {v : Value} {read : Option String} (h : (ofText v).ReadAs read)
    (hempty : ∀ s ∈ read, s = "") : (ofText v).ReadAs none :=
  .none_of_no_value fun s hs => by
    rw [hs] at h
    exact ne_empty_of_ofText hs (hempty s h)

/-- So may a number that was read as zero, unless the document gives it as zero. -/
theorem ReadAs.none_of_zero {file : Given α} {read : Option α} (h : file.ReadAs read)
    {IsZero : α → Prop} (hread : ∀ a ∈ read, IsZero a) (hfile : ¬∃ a, file = .value a ∧ IsZero a) :
    file.ReadAs none :=
  .none_of_no_value fun a ha => by
    rw [ha] at h
    exact hfile ⟨a, ha, hread a h⟩

/-- Of three texts, the first one that is not empty counts; an empty one is no reason to leave the
file aside as long as the file gives nothing. -/
theorem ReadAs.settles_text {v : Value} {read : Option String} (h : (ofText v).ReadAs read)
    {given : Option String} (hgiven : given = some "" → ∀ s, ofText v ≠ .value s)
    (around : Option String) (default : String) :
    (ofText v).Settles (Text.filled given) (· = around.getD default)
      (((Text.filled (given.or read)).or around).getD default) := by
  cases given with
  | some a =>
    by_cases ha : a = ""
    · subst ha
      rw [Option.some_or, Text.filled_empty, Option.none_or]
      cases hv : ofText v with
      | omitted => rfl
      | value s => exact absurd hv (hgiven rfl s)
      | other => trivial
    · rw [Option.some_or, Text.filled_of_ne_empty ha, Option.some_or]
      rfl
  | none =>
    rw [Option.none_or]
    cases hv : ofText v with
    | omitted =>
      rw [hv] at h
      obtain rfl : read = none := h
      rfl
    | value s =>
      rw [hv] at h
      obtain rfl : read = some s := h
      rw [Text.filled_of_ne_empty (ne_empty_of_ofText hv), Option.some_or]
      rfl
    | other => trivial

end Given

/-- Settings stand for nothing if all they give are empty texts and zeros. -/
theorem ModelSettings.isSubstantial_eq_false (m : ModelSettings) : m.isSubstantial = false ↔
    (∀ s ∈ m.provider, s = "") ∧ (∀ s ∈ m.model, s = "") ∧
      (∀ x ∈ m.temperature, x.isZero = true) ∧ (∀ n ∈ m.maxTokens, n = 0) ∧
      (∀ s ∈ m.baseUrl, s = "") ∧ (∀ s ∈ m.apiKey, s = "") ∧ ∀ x ∈ m.timeout, x.isZero = true := by
  simp only [isSubstantial, Bool.or_eq_false_iff, Option.any_eq_false, Option.mem_def,
    decide_eq_false_iff_not, not_not, Bool.not_eq_false', and_assoc]

namespace Client

open Given

variable {env : Environment} {site : Site} {v : Value} {m : ModelSettings} {c : Client}

/-! ## What a client is made of -/

/-- The key where none is given: that of the first variable that holds one, else the stored one. -/
def KeyElsewhere [Yaml.Library] (env : Environment) (site : Site) (p : Provider)
    (key : Option String) : Prop :=
  match env.first? (keyVariable :: p.keyVariables) with
  | some k => key = some k
  | none => ∃ file, keyFile env site = .ok file ∧ Credentials.get? site file p.name = .ok key

/-- The client has the settings that the given ones, the part `llm` of a document, the environment
and the stored keys stand for, in this order. -/
structure Follows [Yaml.Library] (env : Environment) (site : Site) (llm : Value)
    (provider model : Option String) (c : Client) : Prop where
  provider : ∃ name, (ofText (llm.field "provider")).Settles (Text.filled provider)
      (· = (env.given? providerVariable).getD Provider.standard.name) name ∧
    c.provider.name = Text.small (Text.strip name)
  model : (ofText (llm.field "model")).Settles (Text.filled model)
    (· = (env.given? modelVariable).getD c.provider.defaultModel) c.model
  baseUrl : ∃ url, (ofText (llm.field "base_url")).Settles none
      (· = (env.given? baseUrlVariable).getD c.provider.defaultBaseUrl) url ∧
    c.baseUrl = some (Http.withoutSlashes url)
  temperature : ((ofNumber (llm.field "temperature")).map fun x => some (.real x)).Settles none
    (· = some standardTemperature) c.temperature
  maxTokens : ((ofCount (llm.field "max_tokens")).map fun n => some (.whole n)).Settles none
    (· = some Call.standardLength) c.maxTokens
  timeout : ((ofNumber (llm.field "request_timeout")).map fun x => some (.real x)).Settles none
    (· = some standardTimeout) c.timeout
  key : ((ofText (llm.field "api_key")).map some).Settles none (KeyElsewhere env site c.provider)
    c.key

theorem provider?_eq_ok {ch : Choice} {p : Provider} (h : provider? env ch = .ok p) :
    p.name = Text.small (Text.strip (((Text.filled ch.provider).or
      (env.given? providerVariable)).getD Provider.standard.name)) := by
  unfold provider? at h
  dsimp only at h
  split at h
  · rename_i hname
    cases h
    simpa using List.find?_some hname
  · cases h

theorem key?_eq_ok [Yaml.Library] {ch : Choice} {p : Provider} {key : Option String}
    (h : key? env site ch p = .ok key) :
    (∀ k, ch.key = some k → key = k) ∧ (ch.key = none → KeyElsewhere env site p key) := by
  unfold key? at h
  obtain ⟨file, hfile, h⟩ := Settings.bind_eq_ok.1 h
  rw [Settings.mapError_eq_ok] at hfile
  split at h
  · rename_i k hk
    cases h
    refine ⟨fun k' hk' => ?_, fun hnone => ?_⟩
    · exact Option.some.inj (hk.symm.trans hk')
    · cases hk.symm.trans hnone
  · rename_i hk
    refine ⟨fun k' hk' => ?_, fun _ => ?_⟩
    · cases hk.symm.trans hk'
    · unfold KeyElsewhere
      cases hfirst : env.first? (keyVariable :: p.keyVariables) with
      | some k =>
        rw [hfirst] at h
        cases h
        rfl
      | none =>
        rw [hfirst] at h
        exact ⟨file, hfile, Settings.mapError_eq_ok.1 h⟩

theorem make?_eq_ok [Yaml.Library] {ch : Choice} (h : make? env site ch = .ok c) :
    provider? env ch = .ok c.provider ∧ key? env site ch c.provider = .ok c.key ∧
      c.model = modelOf env ch c.provider ∧ c.baseUrl = baseUrlOf env ch c.provider ∧
      c.temperature = ch.temperature.getD (some standardTemperature) ∧
      c.maxTokens = ch.maxTokens.getD (some Call.standardLength) ∧
      c.timeout = ch.timeout.getD (some standardTimeout) := by
  unfold make? at h
  obtain ⟨p, hp, h⟩ := Settings.bind_eq_ok.1 h
  obtain ⟨key, hkey, h⟩ := Settings.bind_eq_ok.1 h
  cases h
  exact ⟨hp, hkey, rfl, rfl, rfl, rfl, rfl⟩

/-! ## Settings that are heard -/

/-- The settings of the model are those that a part of a document gives. -/
structure Hears (v : Value) (m : ModelSettings) : Prop where
  provider : (ofText (v.field "provider")).ReadAs m.provider
  model : (ofText (v.field "model")).ReadAs m.model
  temperature : (ofNumber (v.field "temperature")).ReadAs m.temperature
  maxTokens : (ofCount (v.field "max_tokens")).ReadAs m.maxTokens
  baseUrl : (ofText (v.field "base_url")).ReadAs m.baseUrl
  apiKey : (ofText (v.field "api_key")).ReadAs m.apiKey
  timeout : (ofNumber (v.field "request_timeout")).ReadAs m.timeout

theorem hears_of_readsModel (h : Settings.ReadsModel v m) : Hears v m where
  provider := readAs_ofText h.provider
  model := readAs_ofText h.model
  temperature := readAs_ofNumber h.temperature
  maxTokens := h.maxTokens ▸ readAs_ofCount _
  baseUrl := readAs_ofText h.baseUrl
  apiKey := readAs_ofText h.apiKey
  timeout := readAs_ofNumber h.timeout

/-- The choices of a run: what is given for it before what the settings hold. -/
def choices (provider model : Option String) (m : Option ModelSettings) : Choice :=
  ({ provider, model } : Choice).or ((m.map Choice.ofSettings).getD {})

section
variable (provider model : Option String) (m : ModelSettings)

@[simp] theorem choices_provider :
    (choices provider model (some m)).provider = provider.or m.provider := rfl

@[simp] theorem choices_model : (choices provider model (some m)).model = model.or m.model := rfl

@[simp] theorem choices_baseUrl :
    (choices provider model (some m)).baseUrl = m.baseUrl.map some := rfl

@[simp] theorem choices_temperature : (choices provider model (some m)).temperature =
    m.temperature.map fun x => some (.real x) := rfl

@[simp] theorem choices_maxTokens : (choices provider model (some m)).maxTokens =
    m.maxTokens.map fun n => some (.whole n) := rfl

@[simp] theorem choices_timeout : (choices provider model (some m)).timeout =
    m.timeout.map fun x => some (.real x) := rfl

@[simp] theorem choices_key : (choices provider model (some m)).key = m.apiKey.map some := rfl

end

theorem follows_of_hears [Yaml.Library] {provider model : Option String} (h : Hears v m)
    (hprovider : provider = some "" → ∀ s, ofText (v.field "provider") ≠ .value s)
    (hmodel : model = some "" → ∀ s, ofText (v.field "model") ≠ .value s)
    (hmake : make? env site (choices provider model (some m)) = .ok c) :
    Follows env site v provider model c := by
  obtain ⟨hp, hkey, hmodelOf, hbaseUrl, htemperature, hmaxTokens, htimeout⟩ := make?_eq_ok hmake
  have hname := provider?_eq_ok hp
  obtain ⟨hgiven, helsewhere⟩ := key?_eq_ok hkey
  rw [choices_provider] at hname
  rw [modelOf, choices_model] at hmodelOf
  rw [baseUrlOf, choices_baseUrl] at hbaseUrl
  rw [choices_temperature] at htemperature
  rw [choices_maxTokens] at hmaxTokens
  rw [choices_timeout] at htimeout
  rw [choices_key] at hgiven helsewhere
  constructor
  case provider => exact ⟨_, h.provider.settles_text hprovider _ _, hname⟩
  case model =>
    rw [hmodelOf]
    exact h.model.settles_text hmodel _ _
  case baseUrl =>
    cases hurl : m.baseUrl with
    | none =>
      rw [hurl] at hbaseUrl
      refine ⟨_, h.baseUrl.settles (fun url e => ?_) (fun _ => rfl), hbaseUrl⟩
      cases hurl.symm.trans e
    | some url =>
      rw [hurl] at hbaseUrl
      refine ⟨url, h.baseUrl.settles (fun url' e => ?_) (fun e => ?_), hbaseUrl⟩
      · exact Option.some.inj (hurl.symm.trans e)
      · cases hurl.symm.trans e
  case temperature =>
    rw [htemperature]
    exact (h.temperature.map _).settles_getD _
  case maxTokens =>
    rw [hmaxTokens]
    exact (h.maxTokens.map _).settles_getD _
  case timeout =>
    rw [htimeout]
    exact (h.timeout.map _).settles_getD _
  case key => exact (h.apiKey.map some).settles hgiven helsewhere

/-! ## Settings that are left aside -/

/-- A part of a document gives a number as zero. -/
def GivesZero (v : Value) : Prop :=
  (∃ x, ofNumber (v.field "temperature") = .value x ∧ x.isZero = true) ∨
    (∃ x, ofNumber (v.field "request_timeout") = .value x ∧ x.isZero = true) ∨
    ofCount (v.field "max_tokens") = .value 0

/-- Settings none of which stands for something are as good as none, up to zeros. -/
theorem hears_empty (h : Hears v m) (hm : m.isSubstantial = false) (hzero : ¬GivesZero v) :
    Hears v {} := by
  obtain ⟨hprovider, hmodel, htemperature, hmaxTokens, hbaseUrl, hapiKey, htimeout⟩ :=
    m.isSubstantial_eq_false.1 hm
  unfold GivesZero at hzero
  rw [not_or, not_or] at hzero
  obtain ⟨hnotCold, hnotBrief, hnotShort⟩ := hzero
  exact
    { provider := h.provider.none_of_empty hprovider
      model := h.model.none_of_empty hmodel
      temperature := h.temperature.none_of_zero htemperature hnotCold
      maxTokens := h.maxTokens.none_of_zero hmaxTokens fun ⟨n, hn, hzero⟩ => hnotShort (hzero ▸ hn)
      baseUrl := h.baseUrl.none_of_empty hbaseUrl
      apiKey := h.apiKey.none_of_empty hapiKey
      timeout := h.timeout.none_of_zero htimeout hnotBrief }

/-- A zero is not followed where the settings are left aside: none of the defaults is zero. -/
theorem not_follows_of_zero [Yaml.Library] {provider model : Option String} (hzero : GivesZero v)
    (hmake : make? env site (choices provider model none) = .ok c) :
    ¬Follows env site v provider model c := by
  intro h
  obtain ⟨-, -, -, -, htemperature, hmaxTokens, htimeout⟩ := make?_eq_ok hmake
  obtain ⟨x, hx, hcold⟩ | ⟨x, hx, hbrief⟩ | hshort := hzero
  · have hgot := h.temperature
    rw [hx, htemperature] at hgot
    cases hgot
    exact absurd hcold (by decide)
  · have hgot := h.timeout
    rw [hx, htimeout] at hgot
    cases hgot
    exact absurd hbrief (by decide)
  · have hgot := h.maxTokens
    rw [hshort, hmaxTokens] at hgot
    cases hgot

/-- An override that is empty hides what the file says, and counts for nothing itself. -/
theorem make?_of_blank [Yaml.Library] {provider model : Option String} {m : Option ModelSettings}
    (hmake : make? env site (choices provider model m) = .ok c) :
    (provider = some "" → c.provider.name =
      Text.small (Text.strip ((env.given? providerVariable).getD Provider.standard.name))) ∧
    (model = some "" → c.model = (env.given? modelVariable).getD c.provider.defaultModel) := by
  obtain ⟨hp, -, hmodel, -⟩ := make?_eq_ok hmake
  have hname := provider?_eq_ok hp
  constructor
  · rintro rfl
    have hblank : (choices (some "") model m).provider = some "" := rfl
    rwa [hblank, Text.filled_empty, Option.none_or] at hname
  · rintro rfl
    have hblank : (choices provider (some "") m).model = some "" := rfl
    rwa [modelOf, hblank, Text.filled_empty, Option.none_or] at hmodel

/-! ## Small settings files -/

namespace Sample

def settingsSite (text : String) : Site where
  disk := ⟨.folder [("p", .folder [(Settings.fileName, .file (Text.encode text) 0o644)])]⟩
  working := "/"
  home := "/"

def keyed : Environment := [(keyVariable, "k")]

/-- A temperature of zero is all that is set. -/
def cold : String := "llm:\n  temperature: 0\n"

/-- A temperature of zero and a model are set. -/
def coldModel : String := "llm:\n  temperature: 0\n  model: m\n"

def coldPart : Value := .map [(.text "temperature", .int 0)]

theorem load_cold : Settings.Holds (settingsSite cold) "/p" (.map [(.text "llm", coldPart)]) ∧
    Settings.load (settingsSite cold) "/p" = .ok { root := "/p" } := by
  refine ⟨⟨"/p/.perflens.yml", by decide +kernel, by decide +kernel, ?_⟩, ?_⟩
  · exact eq_ok_of_toOption (by decide +kernel)
  · exact eq_ok_of_toOption (by decide +kernel)

def coldModelPart : Value := .map [(.text "temperature", .int 0), (.text "model", .text "m")]

theorem load_coldModel :
    Settings.Holds (settingsSite coldModel) "/p" (.map [(.text "llm", coldModelPart)]) ∧
      Settings.load (settingsSite coldModel) "/p" =
        .ok { root := "/p", model := some { model := some "m", temperature := some .zero } } := by
  refine ⟨⟨"/p/.perflens.yml", by decide +kernel, by decide +kernel, ?_⟩, ?_⟩
  · exact eq_ok_of_toOption (by decide +kernel)
  · exact eq_ok_of_toOption (by decide +kernel)

end Sample

/-- A client made from loaded settings has what is given for the run, else what the file says, else
what the environment, the stored keys and the defaults give, in this order, unless the file gives
zeros and nothing else of the model. -/
theorem make?_follows_iff [Yaml.Library] {path : String} {settings : Settings}
    {provider model : Option String}
    (hload : Settings.load site path = .ok settings) (hv : Settings.Holds site path v)
    (hprovider : provider = some "" → ∀ s, ofText ((v.field "llm").field "provider") ≠ .value s)
    (hmodel : model = some "" → ∀ s, ofText ((v.field "llm").field "model") ≠ .value s)
    (hmake : make? env site (choices provider model settings.model) = .ok c) :
    Follows env site (v.field "llm") provider model c ↔
      (GivesZero (v.field "llm") → settings.model ≠ none) := by
  obtain ⟨m, hreads, hmodelOf⟩ := Settings.model_of_load hload hv
  have hears := hears_of_readsModel hreads
  cases hm : m.isSubstantial with
  | true =>
    rw [hm, if_pos rfl] at hmodelOf
    rw [hmodelOf] at hmake ⊢
    refine iff_of_true (follows_of_hears hears hprovider hmodel hmake) fun _ h => ?_
    cases h
  | false =>
    have hnone : settings.model = none := by
      rw [hmodelOf, hm]
      rfl
    rw [hnone] at hmake ⊢
    refine ⟨fun h hzero => (not_follows_of_zero hzero hmake h).elim, fun h => ?_⟩
    have hzero : ¬GivesZero (v.field "llm") := fun hz => h hz rfl
    exact follows_of_hears (hears_empty hears hm hzero) hprovider hmodel hmake

theorem make?_follows_iff_coldModel : ∃ settings c,
    Settings.load (Sample.settingsSite Sample.coldModel) "/p" = .ok settings ∧
      Settings.Holds (Sample.settingsSite Sample.coldModel) "/p"
        (.map [(.text "llm", Sample.coldModelPart)]) ∧
      make? Sample.keyed (Sample.settingsSite Sample.coldModel)
        (choices none none settings.model) = .ok c ∧
      c.temperature = some (.real .zero) ∧
      Follows Sample.keyed (Sample.settingsSite Sample.coldModel) Sample.coldModelPart none none
        c := by
  obtain ⟨hv, hload⟩ := Sample.load_coldModel
  have hmake : make? Sample.keyed (Sample.settingsSite Sample.coldModel)
      (choices none none (some { model := some "m", temperature := some .zero })) =
        .ok ⟨.anthropic, "m", some "https://api.anthropic.com/v1", some (.real .zero),
          some (.whole 8192), some "k", some standardTimeout⟩ := by
    decide +kernel
  refine ⟨_, _, hload, hv, hmake, rfl, (make?_follows_iff hload hv ?_ ?_ hmake).2 fun _ => ?_⟩
  · exact nofun
  · exact nofun
  · exact nofun

/-- A temperature of zero that is all that a file sets is not the client's. -/
theorem not_follows_cold : ∃ settings c,
    Settings.load (Sample.settingsSite Sample.cold) "/p" = .ok settings ∧
      Settings.Holds (Sample.settingsSite Sample.cold) "/p"
        (.map [(.text "llm", Sample.coldPart)]) ∧
      ofNumber (Sample.coldPart.field "temperature") = .value .zero ∧
      make? Sample.keyed (Sample.settingsSite Sample.cold) (choices none none settings.model) =
        .ok c ∧
      c.temperature = some standardTemperature ∧
      ¬Follows Sample.keyed (Sample.settingsSite Sample.cold) Sample.coldPart none none c := by
  obtain ⟨hv, hload⟩ := Sample.load_cold
  have hmake : make? Sample.keyed (Sample.settingsSite Sample.cold) (choices none none none) =
      .ok ⟨.anthropic, Provider.anthropic.defaultModel, some "https://api.anthropic.com/v1",
        some standardTemperature, some (.whole 8192), some "k", some standardTimeout⟩ := by
    decide +kernel
  have hzero : ofNumber (Sample.coldPart.field "temperature") = .value .zero := rfl
  exact ⟨_, _, hload, hv, hzero, hmake, rfl, not_follows_of_zero (.inl ⟨_, hzero, rfl⟩) hmake⟩

end Client

end PerfReview
