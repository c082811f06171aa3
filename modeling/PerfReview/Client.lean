import PerfReview.Client.Content
import PerfReview.Client.Post
import PerfReview.Credentials
import PerfReview.Environment
import PerfReview.Json.Reader
import PerfReview.Oracle
import PerfReview.Settings

/-!
# The client of a provider

A client is made from choices: for each setting what is chosen wins, then the environment, for the
key then the stored keys, and last what the provider uses anyway. A client asks its provider over
the network; it gives back the text of the answer without white space at its ends, or says why there
is none.
-/

namespace PerfReview

/-- What is chosen about a client. Of a setting that may be switched off, `some none` says that it
is. -/
structure Choice where
  provider : Option String := none
  model : Option String := none
  baseUrl : Option (Option String) := none
  temperature : Option (Option Amount) := none
  maxTokens : Option (Option Amount) := none
  key : Option (Option String) := none
  timeout : Option (Option Amount) := none
  deriving DecidableEq, Repr

namespace Choice

/-- The first choice where it is made, else the second. -/
def or (a b : Choice) : Choice where
  provider := a.provider.or b.provider
  model := a.model.or b.model
  baseUrl := a.baseUrl.or b.baseUrl
  temperature := a.temperature.or b.temperature
  maxTokens := a.maxTokens.or b.maxTokens
  key := a.key.or b.key
  timeout := a.timeout.or b.timeout

def ofSettings (m : ModelSettings) : Choice where
  provider := m.provider
  model := m.model
  baseUrl := m.baseUrl.map some
  temperature := m.temperature.map fun x => some (.real x)
  maxTokens := m.maxTokens.map fun n => some (.whole n)
  key := m.apiKey.map some
  timeout := m.timeout.map fun x => some (.real x)

end Choice

/-- Why a client could not be made. -/
inductive ChoiceFault where
  | unsupported (provider : String)
  | credentials (f : Credentials.Fault)
  deriving DecidableEq

namespace ChoiceFault

def message : ChoiceFault → String
  | unsupported provider =>
    let names := String.intercalate ", " (Provider.all.map (·.name))
    s!"Unsupported AI provider: {provider} (expected one of {names})"
  | credentials f => f.message

end ChoiceFault

/-- Why a client has no answer. -/
inductive ClientFault where
  | noBaseUrl
  | noKey (p : Provider)
  /-- The address cannot be used. -/
  | address (f : Http.Url.Fault)
  /-- The address would hold surrogates. -/
  | surrogates (u : Text.Unwritable)
  /-- An integer of the body or of a message is too long to be written. -/
  | unwritable
  | refused (p : Provider) (status : Int) (reason : String)
  | unreachable (p : Provider) (reason : String)
  | timedOut (p : Provider) (after : Amount)
  /-- The post or its answer makes no message. -/
  | broken (reason : String)
  | undecodable (m : Text.Malformed)
  | notJson (p : Provider)
  /-- An integer of the answer has too many digits. -/
  | tooLong (digits : Nat)
  /-- A list or an object of the answer stands in too many others. -/
  | tooDeep (isList : Bool)
  /-- The answer is no object. -/
  | notObject (found : Json)
  | empty (p : Provider)

namespace ClientFault

def message : ClientFault → String
  | noBaseUrl => "HTTP runner requires a base_url to be configured."
  | noKey p =>
    s!"No API key configured for provider '{p.name}'. Run \x60perflens config set-key KEY " ++
      s!"--provider {p.name}\x60 or set PERFLENS_LLM_API_KEY."
  | address f => f.message
  | surrogates u => u.message
  | unwritable => Number.tooLongToWriteMessage
  | refused p status reason =>
    s!"{p.name} request failed with status {Number.intText status}: {reason}"
  | unreachable p reason => s!"{p.name} request failed: {reason}"
  | timedOut p after => s!"{p.name} request timed out after {after.text}s"
  | broken reason => reason
  | undecodable m => m.message
  | notJson p => s!"{p.name} returned invalid JSON"
  | tooLong digits => Number.tooLongMessage digits
  | tooDeep isList => Json.tooDeepMessage isList
  | notObject found => s!"'{AuditFault.typeName found}' object has no attribute 'get'"
  | empty p => s!"{p.name} returned an empty response"

/-- The fault is one that the client states itself; the others come from what it is built on. -/
def isOwn : ClientFault → Bool
  | address _ | surrogates _ | unwritable | broken _ | undecodable _ | tooLong _ | tooDeep _
  | notObject _ => false
  | _ => true

/-- How the call to the model ends with a fault. -/
def ending (f : ClientFault) : Ending := if f.isOwn then .refused f.message else .failed f.message

end ClientFault

structure Client where
  provider : Provider
  model : String
  baseUrl : Option String
  temperature : Option Amount
  maxTokens : Option Amount
  key : Option String
  timeout : Option Amount
  deriving DecidableEq, Repr

namespace Client

variable [Json.Room] [Yaml.Library]

def providerVariable : String := "PERFLENS_LLM_PROVIDER"
def modelVariable : String := "PERFLENS_LLM_MODEL"
def baseUrlVariable : String := "PERFLENS_LLM_BASE_URL"
def keyVariable : String := "PERFLENS_LLM_API_KEY"

/-- The variable that moves the folder of the stored keys. -/
def folderVariable : String := "PERFLENS_HOME"

/-- The temperature of an answer unless another one is chosen, one fifth. -/
def standardTemperature : Amount := .real (.ofDecimal false 2 (-1))

/-- The seconds to wait for an answer unless others are chosen. -/
def standardTimeout : Amount := .real (.ofDecimal false 120 0)

def provider? (env : Environment) (c : Choice) : Except ChoiceFault Provider :=
  let name := ((Text.filled c.provider).or (env.given? providerVariable)).getD Provider.standard.name
  match Provider.ofName? (Text.small (Text.strip name)) with
  | some p => .ok p
  | none => .error (.unsupported name)

def modelOf (env : Environment) (c : Choice) (p : Provider) : String :=
  ((Text.filled c.model).or (env.given? modelVariable)).getD p.defaultModel

def baseUrlOf (env : Environment) (c : Choice) (p : Provider) : Option String :=
  match c.baseUrl with
  | some url => url.map Http.withoutSlashes
  | none => some (Http.withoutSlashes ((env.given? baseUrlVariable).getD p.defaultBaseUrl))

def keyFile (env : Environment) (site : Site) : Except PathFault String :=
  (Credentials.folder site (Assoc.get? env folderVariable)).map (Path.join · Credentials.fileName)

def key? (env : Environment) (site : Site) (c : Choice) (p : Provider) :
    Except ChoiceFault (Option String) := do
  let file ← (keyFile env site).mapError fun f => .credentials (.unusable f)
  match c.key with
  | some key => return key
  | none =>
    match env.first? (keyVariable :: p.keyVariables) with
    | some key => return some key
    | none => (Credentials.get? site file p.name).mapError .credentials

/-- The client that choices, the environment and the stored keys make together. -/
def make? (env : Environment) (site : Site) (c : Choice) : Except ChoiceFault Client := do
  let provider ← provider? env c
  let key ← key? env site c provider
  return {
    provider, key
    model := modelOf env c provider
    baseUrl := baseUrlOf env c provider
    temperature := c.temperature.getD (some standardTemperature)
    maxTokens := c.maxTokens.getD (some Call.standardLength)
    timeout := c.timeout.getD (some standardTimeout) }

/-- What the client needs for a call. -/
def call? (c : Client) : Except ClientFault Call :=
  match Text.filled c.baseUrl, Text.filled c.key with
  | none, _ => .error .noBaseUrl
  | some _, none => .error (.noKey c.provider)
  | some baseUrl, some key => .ok {
      provider := c.provider, model := c.model, baseUrl, key
      temperature := c.temperature, maxTokens := c.maxTokens
      timeout := (c.timeout.filter (!·.isZero)).getD standardTimeout }

/-- The post of a request, if it can be sent. -/
def post? (c : Client) (r : Request) : Except ClientFault Http.Post := do
  let call ← c.call?
  if let some u := call.unwritable? then throw (.surrogates u)
  let post := call.post r
  if post.body.toValue.isUnwritable then throw .unwritable
  if let some f := Http.Url.fault? post.url then throw (.address f)
  return post

def readBody (p : Provider) (bytes : List UInt8) : Except ClientFault String :=
  match Text.decodeStrict bytes with
  | .error m => .error (.undecodable m)
  | .ok chars =>
    match Json.read (String.ofList chars) with
    | .error .malformed => .error (.notJson p)
    | .error (.tooLong n) => .error (.tooLong n)
    | .error (.tooDeep isList) => .error (.tooDeep isList)
    | .ok payload =>
      if !payload.isObject then .error (.notObject payload)
      else
        let text := Text.strip (p.content payload)
        if text = "" then .error (.empty p) else .ok text

/-- The fault whose message shows the amount, if that can be written. -/
def showing (a : Amount) (f : ClientFault) : ClientFault :=
  if a.toJson.toValue.isUnwritable then .unwritable else f

/-- What a delivery says; nothing if it never comes. -/
def readDelivery (p : Provider) (timeout : Amount) : Http.Delivery → Option (Except ClientFault String)
  | .body bytes => some (readBody p bytes)
  | .refused status reason detail =>
    let detail := Text.strip (String.ofList (Text.decodeSkipping detail))
    let fault := ClientFault.refused p status (if detail = "" then reason else detail)
    some (.error (showing (.whole status) fault))
  | .unreachable reason => some (.error (.unreachable p reason))
  | .timedOut => some (.error (showing timeout (.timedOut p timeout)))
  | .broken reason => some (.error (.broken reason))
  | .interrupted => none

/-- The exchange with a network: its state, and the posts handed to it so far. -/
structure Line (σ : Type) where
  network : σ
  sent : List Http.Post := []

variable {σ : Type}

def ask (c : Client) (n : Http.Network σ) (l : Line σ) (r : Request) :
    Option (Except ClientFault String) × Line σ :=
  match c.post? r with
  | .error f => (some (.error f), l)
  | .ok post =>
    let (delivery, network) := n.send l.network post
    (readDelivery c.provider post.timeout delivery, ⟨network, l.sent ++ [post]⟩)

def endingOf : Option (Except ClientFault String) → Ending
  | none => .silent
  | some (.ok text) => .text text
  | some (.error f) => f.ending

def oracle (c : Client) (n : Http.Network σ) : Oracle (Line σ) where
  call l r :=
    let (answer, l) := c.ask n l r
    (endingOf answer, l)

end Client

end PerfReview
