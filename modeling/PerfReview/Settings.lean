import PerfReview.Defaults
import PerfReview.Limits
import PerfReview.Report.Output
import PerfReview.Yaml.Library

/-!
# Settings

What the settings file of a folder says, with defaults for the rest: the folder to review, limits
and patterns, the model, the output, and a file of audit findings. A value of the wrong kind counts
as missing. The patterns of the ignore file and of the key `ignore` are added to those in force,
whatever else the settings say.
-/

namespace PerfReview

structure ModelSettings where
  provider : Option String := none
  model : Option String := none
  temperature : Option Number.Binary64 := none
  maxTokens : Option Int := none
  baseUrl : Option String := none
  apiKey : Option String := none
  timeout : Option Number.Binary64 := none
  deriving DecidableEq, Repr

namespace ModelSettings

/-- Some setting of the model has a value that stands for something. -/
def isSubstantial (m : ModelSettings) : Bool :=
  let given (s : Option String) : Bool := s.any (· ≠ "")
  given m.provider || given m.model || m.temperature.any (!·.isZero) || m.maxTokens.any (· ≠ 0) ||
    given m.baseUrl || given m.apiKey || m.timeout.any (!·.isZero)

end ModelSettings

structure Settings where
  /-- The folder of the settings file. -/
  root : String
  /-- The folder to review as it is written. -/
  target : String := "."
  limits : Limits := {}
  includes : List String := defaultIncludes
  ignores : List String := defaultIgnores
  model : Option ModelSettings := none
  output : Output := {}
  audit : Option String := none
  deriving DecidableEq, Repr

/-- Why settings could not be loaded. -/
inductive SettingsFault where
  | undecodable (m : Text.Malformed)
  /-- A path could not be used. -/
  | unusable (f : PathFault)
  | malformed (name : String)
  /-- The document holds a text that does not mean what its tag says. -/
  | document (f : Yaml.Fault)
  | notMap (name : String)
  | limits (f : LimitsFault)
  | format (found : String)
  /-- An integer is too long to be written. -/
  | unwritable
  /-- An integer is beyond all floating-point numbers. -/
  | tooLarge

namespace SettingsFault

def message : SettingsFault → String
  | undecodable m => m.message
  | unusable f => f.message
  | malformed name => s!"Failed to parse {name}"
  | document f => f.message
  | notMap name => s!"{name} must contain a mapping at the root"
  | limits f => f.message
  | format found => s!"output.format must be one of md, html, json (got {Text.quoted found})"
  | unwritable => Number.tooLongToWriteMessage
  | tooLarge => "int too large to convert to float"

end SettingsFault

namespace Value

/-- The value of a key of a map, null where it is missing. -/
def field (v : Value) (name : String) : Value :=
  match v with
  | .map entries =>
    ((entries.find? fun (k, _) => match k with | .text s => s = name | _ => false).map (·.2)).getD
      .null
  | _ => .null

/-- A map as it is, anything else as an empty one. -/
def orEmptyMap : Value → Value
  | .map entries => .map entries
  | _ => .map []

def asText? (v : Value) : Except SettingsFault (Option String) :=
  match v with
  | .text _ | .int _ | .float _ | .bool _ =>
    if v.isUnwritable then .error .unwritable else .ok (some v.display)
  | _ => .ok none

/-- A number, written as one or as a text. -/
def asReal? : Value → Except SettingsFault (Option Number.Binary64)
  | .int n =>
    match Number.Binary64.ofInt? n with
    | some x => .ok (some x)
    | none => .error .tooLarge
  | .float x => .ok (some x)
  | .text s => .ok (Number.readFloat? s)
  | _ => .ok none

/-- An integer, written as one or as a text. -/
def asInt? : Value → Option Int
  | .int n => some n
  | .text s => (Number.readInt s).toOption
  | _ => none

/-- A truth value, written as one or as a word. -/
def asBool? : Value → Option Bool
  | .bool b => some b
  | .text s =>
    let word := Text.small (Text.strip s)
    if word ∈ ["true", "yes", "1"] then some true
    else if word ∈ ["false", "no", "0"] then some false
    else none
  | _ => none

/-- The texts of the scalars of a list; a text is a list of itself. -/
def asTexts : Value → Except SettingsFault (List String)
  | .text s => .ok [s]
  | .list items => items.filterMapM asText?
  | .bytes bs => .ok (bs.map fun b => Number.natText b.toNat)
  | _ => .ok []

end Value

namespace Settings

def fileName : String := ".perflens.yml"

def ignoreFileName : String := ".perflensignore"

/-- The patterns of the lines of an ignore file; comments and blank lines give none. -/
def ignoreLines (text : String) : List String :=
  ((Text.lines text).map Text.strip).filter fun l => l ≠ "" && !l.startsWith "#"

/-- The patterns of the ignore file of a folder. -/
def loadIgnores (site : Site) (folder : String) : Except SettingsFault (List String) := do
  let path := Path.join folder ignoreFileName
  if ← (site.hasFile path).mapError .unusable then
    match site.readText path with
    | .ok text => return ignoreLines text
    | .error (.inl f) => throw (.unusable f)
    | .error (.inr m) => throw (.undecodable m)
  else return []

/-- The settings file that a path means: the path itself or the file in the folder there. -/
def file (site : Site) (path : String) : Except PathFault String := do
  let path ← site.expand path
  if ← site.hasFolder path then site.resolve (Path.join path fileName) else site.resolve path

/-- The containers within each other that settings look into: the document, its parts, and the lists
in these. -/
def depth : Nat := 3

/-- The document of a settings file; one that stands for nothing is an empty map. -/
def document [Yaml.Library] (site : Site) (file : String) : Except SettingsFault Value :=
  match site.readText file with
  | .error (.inl f) => .error (.unusable f)
  | .error (.inr m) => .error (.undecodable m)
  | .ok text =>
    if Text.isAllBlank text then .ok (.map [])
    else
      match Yaml.Library.read text with
      | .error .malformed => .error (.malformed (Path.name file))
      | .error f => .error (.document f)
      | .ok d => .ok (if d.isSubstantial d.root then d.outline depth d.root else .map [])

def thousandth (x : Number.Binary64) : Number.Binary64 := x.scale 1 1000

/-- The limits with those of the settings in place; the delay is given in milliseconds. -/
def limitsOf (v : Value) (l : Limits) : Except SettingsFault Limits := do
  let delay ← (v.field "batch_delay").asReal?
  let count (name : String) : List (String × Json) :=
    ((v.field name).asInt?.map fun n => (name, Json.int n)).toList
  let changes := count "max_files" ++ count "batch_size" ++ count "max_file_size" ++
    count "token_budget" ++ (delay.map fun x => ("batch_delay", Json.float (thousandth x))).toList
  if changes.isEmpty then return l else (l.override changes).mapError .limits

def listOr (default items : List String) : List String := if items.isEmpty then default else items

/-- Takes up the part on the files to review. -/
def withAnalysis (v : Value) (s : Settings) : Except SettingsFault Settings := do
  if !v.isSubstantial then return s
  let target ← (v.field "target_dir").asText?
  let limits ← limitsOf v s.limits
  let includes ← (v.field "include").asTexts
  let ignores ← (v.field "ignore").asTexts
  return { s with
    target := (Text.filled target).getD s.target
    limits
    includes := listOr s.includes includes
    ignores := listOr s.ignores ignores }

def withModel (v : Value) (s : Settings) : Except SettingsFault Settings := do
  if !v.isSubstantial then return s
  let model : ModelSettings := {
    provider := ← (v.field "provider").asText?
    model := ← (v.field "model").asText?
    temperature := ← (v.field "temperature").asReal?
    maxTokens := (v.field "max_tokens").asInt?
    baseUrl := ← (v.field "base_url").asText?
    apiKey := ← (v.field "api_key").asText?
    timeout := ← (v.field "request_timeout").asReal? }
  return { s with model := if model.isSubstantial then some model else none }

def withOutput (v : Value) (s : Settings) : Except SettingsFault Settings := do
  if !v.isSubstantial then return s
  let format ← (v.field "format").asText?
  let format := Text.small ((Text.filled format).getD s.output.format)
  if (Format.ofName? format).isNone then throw (.format format)
  let folder ← (v.field "directory").asText?
  let filename ← (v.field "filename").asText?
  return { s with output := {
    format, folder
    filename := (Text.filled filename).getD s.output.filename
    stamped := (v.field "include_timestamp").asBool?.getD s.output.stamped } }

/-- The settings of a document; `extra` holds the patterns of the ignore file. -/
def ofDocument (root name : String) (extra : List String) (v : Value) :
    Except SettingsFault Settings := do
  match v with
  | .map _ => pure ()
  | _ => throw (.notMap name)
  let s ← withAnalysis (v.field "analysis").orEmptyMap { root }
  let s := { s with ignores := s.ignores ++ (← (v.field "ignore").asTexts) ++ extra }
  let s ← withModel (v.field "llm").orEmptyMap s
  let s ← withOutput (v.field "output").orEmptyMap s
  let audit ← (v.field "audit_context").asText?
  return { s with audit := (Text.filled audit).map (Path.join root) }

/-- Loads the settings that a path means; without a file there are defaults. -/
def load [Yaml.Library] (site : Site) (path : String) : Except SettingsFault Settings := do
  let file ← (file site path).mapError .unusable
  let root ← (site.resolve (Path.parent file)).mapError .unusable
  let extra ← loadIgnores site root
  if ← (site.has file).mapError .unusable then
    ofDocument root (Path.name file) extra (← document site file)
  else return { root, ignores := defaultIgnores ++ extra }

def targetPath (site : Site) (s : Settings) : Except PathFault String := do
  site.resolve (Path.join s.root (← site.expand s.target))

end Settings

end PerfReview
