/-!
# Providers

The services that host the model, with what each of them uses unless told otherwise.
-/

namespace PerfReview

inductive Provider where
  | anthropic
  | gemini
  | openai
  deriving DecidableEq, Repr

namespace Provider

def all : List Provider := [anthropic, gemini, openai]

def name : Provider → String
  | anthropic => "anthropic"
  | gemini => "gemini"
  | openai => "openai"

def ofName? (s : String) : Option Provider := all.find? (·.name = s)

/-- The provider that is used unless another one is named. -/
def standard : Provider := anthropic

def defaultModel : Provider → String
  | anthropic => "claude-3-5-haiku-20241022"
  | gemini => "gemini-1.5-flash"
  | openai => "gpt-4o"

def defaultBaseUrl : Provider → String
  | anthropic => "https://api.anthropic.com/v1"
  | gemini => "https://generativelanguage.googleapis.com/v1beta"
  | openai => "https://api.openai.com/v1"

/-- The variables that may hold a key of the provider, the first one first. -/
def keyVariables : Provider → List String
  | anthropic => ["PERF_LENS_ANTHROPIC_API_KEY", "ANTHROPIC_API_KEY"]
  | gemini => ["PERF_LENS_GEMINI_API_KEY", "GEMINI_API_KEY"]
  | openai => ["PERF_LENS_OPENAI_API_KEY", "OPENAI_API_KEY"]

end Provider

end PerfReview
