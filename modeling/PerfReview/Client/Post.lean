import PerfReview.Http.Url
import PerfReview.Http.Basic
import PerfReview.Prompt.Request
import PerfReview.Provider

/-!
# The post of a request

Each provider takes a request in a form of its own: where it is sent, how the key is shown, and how
the body is laid out. A setting of the model that is not given is left out of the body.
-/

namespace PerfReview

/-- What a post needs besides the request. -/
structure Call where
  provider : Provider
  model : String
  baseUrl : String
  key : String
  temperature : Option Amount
  maxTokens : Option Amount
  timeout : Amount
  deriving DecidableEq, Repr

namespace Call

/-- The length of an answer that is asked for where a length must be given. -/
def standardLength : Amount := .whole 8192

def url (c : Call) : String :=
  match c.provider with
  | .anthropic => s!"{c.baseUrl}/messages"
  | .gemini => s!"{c.baseUrl}/models/{Http.percentEncoded c.model}:generateContent"
  | .openai => s!"{c.baseUrl}/chat/completions"

/-- What of a call cannot be written into its address. -/
def unwritable? (c : Call) : Option Text.Unwritable :=
  match c.provider with
  | .gemini => Text.unwritable? c.model
  | _ => none

def headers (c : Call) : List (String × String) :=
  ("content-type", "application/json") ::
    match c.provider with
    | .anthropic => [("x-api-key", c.key), ("anthropic-version", "2023-06-01")]
    | .gemini => [("x-goog-api-key", c.key)]
    | .openai => [("authorization", s!"Bearer {c.key}")]

def textPart (s : String) : Json := .object [("text", .text s)]

def message (role content : String) : Json :=
  .object [("role", .text role), ("content", .text content)]

/-- A field with the amount, if there is one. -/
def amountField (name : String) (a : Option Amount) : List (String × Json) :=
  (a.map fun a => (name, a.toJson)).toList

def anthropicBody (c : Call) (r : Request) : Json :=
  .object <| [
    ("model", .text c.model),
    ("messages", .list [message "user" r.prompt]),
    ("max_tokens", ((c.maxTokens.filter (!·.isZero)).getD standardLength).toJson)] ++
    (if r.system = "" then [] else [("system", .text r.system)]) ++
    amountField "temperature" c.temperature

def geminiBody (c : Call) (r : Request) : Json :=
  let generation :=
    amountField "temperature" c.temperature ++ amountField "maxOutputTokens" c.maxTokens
  .object <|
    [("contents",
      .list [.object [("role", .text "user"), ("parts", .list [textPart r.prompt])]])] ++
    (if r.system = "" then []
      else [("systemInstruction", .object [("parts", .list [textPart r.system])])]) ++
    (if generation.isEmpty then [] else [("generationConfig", .object generation)])

def openaiBody (c : Call) (r : Request) : Json :=
  let system := if r.system = "" then [] else [message "system" r.system]
  .object <| [
    ("model", .text c.model),
    ("messages", .list (system ++ [message "user" r.prompt]))] ++
    amountField "temperature" c.temperature ++ amountField "max_tokens" c.maxTokens

def body (c : Call) (r : Request) : Json :=
  match c.provider with
  | .anthropic => c.anthropicBody r
  | .gemini => c.geminiBody r
  | .openai => c.openaiBody r

def post (c : Call) (r : Request) : Http.Post :=
  ⟨Http.Url.cleaned c.url, c.headers, c.body r, c.timeout⟩

end Call

end PerfReview
