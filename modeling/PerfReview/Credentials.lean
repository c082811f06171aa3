import PerfReview.Log.Entry
import PerfReview.Site
import PerfReview.Text.LetterCase
import PerfReview.Yaml.Library

/-!
# Stored keys

The keys of model providers, kept in a file that its owner alone can read. Names of providers are
stored in small letters. Reading takes the entries whose values stand for something; storing a key
reads the file, puts the key in place and writes the file anew.
-/

namespace PerfReview.Credentials

def fileName : String := "credentials.yml"

/-- The name of the map of keys in the file. -/
def field : String := "api_keys"

/-- The folder of the file: the given one, or one in the home folder. -/
def folder (site : Site) (given : Option String) : Except PathFault String :=
  match given with
  | none | some "" => (site.expand "~").map (Path.join · ".perflens")
  | some f => site.expand f

/-- The key with all but its ends hidden. -/
def mask (key : String) : String :=
  let cs := key.toList
  if cs.length ≤ 8 then String.ofList (cs.map fun _ => '*')
  else String.ofList (cs.take 4 ++ "...".toList ++ cs.drop (cs.length - 4))

inductive Fault where
  /-- The file could not be read. -/
  | unreadable (f : PathFault) (path : String)
  | malformed (path : String)
  | undecodable (m : Text.Malformed)
  | document (f : Yaml.Fault)
  | notMap (path : String)
  | keysNotMap (path : String)
  /-- An integer is too long to be written. -/
  | unwritable
  | blankKey
  /-- The path of the file could not be used. -/
  | unusable (f : PathFault)
  deriving DecidableEq

namespace Fault

def message : Fault → String
  | unreadable f path => s!"Unable to read credentials from {path}: {f.message}"
  | malformed path => s!"Unable to read credentials from {path}"
  | undecodable m => m.message
  | document f => f.message
  | notMap path => s!"Credentials file {path} must contain a mapping"
  | keysNotMap path => s!"{field} in {path} must be a mapping"
  | unwritable => Number.tooLongToWriteMessage
  | blankKey => "API key must not be empty"
  | unusable f => f.message

end Fault

/-- The entry of a file as a pair of texts, if it holds a key. -/
def keyPair? (d : Yaml.Document) (e : Value × Yaml.Item) :
    Except Fault (Option (String × String)) :=
  if !d.isSubstantial e.2 then .ok none
  else
    let key := d.value e.2
    if e.1.isUnwritable || key.isUnwritable then .error .unwritable
    else .ok (some (e.1.display, key.display))

def ofDocument (path : String) (d : Yaml.Document) : Except Fault (List (String × String)) := do
  if !d.isSubstantial d.root then return []
  let some entries := d.entries? d.root | throw (.notMap path)
  match entries.find? fun (k, _) => match k with | .text s => s = field | _ => false with
  | none => return []
  | some (_, keys) =>
    if !d.isSubstantial keys then return []
    match d.entries? keys with
    | some entries => return Assoc.ofPairs (← entries.filterMapM (keyPair? d))
    | none => throw (.keysNotMap path)

variable [Yaml.Library]

/-- The keys in a file; none without a file. -/
def load (site : Site) (path : String) : Except Fault (List (String × String)) := do
  if !(← (site.has path).mapError .unusable) then return []
  match site.readText path with
  | .error (.inl f) => throw (.unreadable f path)
  | .error (.inr m) => throw (.undecodable m)
  | .ok text =>
    match Yaml.Library.read text with
    | .error .malformed => throw (.malformed path)
    | .error f => throw (.document f)
    | .ok d => ofDocument path d

def get? (site : Site) (path provider : String) : Except Fault (Option String) :=
  (load site path).map fun keys => Assoc.get? keys (Text.small provider)

/-- What is logged when a key has been stored. -/
def storedLog (provider path : String) : Log.Entry :=
  .debug "llm.credentials" s!"Stored {provider} API key in {path}"

/-- Stores the key of a provider, which is not blank. -/
def set (site : Site) (path provider key : String) : Change Fault Unit := do
  let key := Text.strip key
  if key = "" then throw .blankKey
  let keys ← load (site.on (← get)) path
  let text := Yaml.Library.write field (Assoc.put (Text.small provider) key keys)
  (site.writeText path text).adapt fun
    | .inl f => .unusable f
    | .inr u => .unusable (.surrogates u)
  (site.setMode path 0o600).adapt .unusable

end PerfReview.Credentials
