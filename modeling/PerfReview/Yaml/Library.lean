import PerfReview.Yaml.Container
import PerfReview.Yaml.Fault

/-!
# The library for YAML

What the program asks of the library that reads its settings and keeps its keys.
-/

namespace PerfReview.Yaml

class Library where
  /-- The value of the document in a text. -/
  read : String → Except Fault Document
  /-- The document with a map under a name. -/
  write : String → List (String × String) → String

end PerfReview.Yaml
