import PerfReview.Json.Reader
import PerfReview.Service.Lenient
import PerfReview.Service.Order
import PerfReview.Yaml.Document
import PerfReview.Yaml.Library
import PerfReview.Yaml.Printer

/-!
# Standard libraries

The libraries as the program finds them. The depths are those of a program that stands no deeper in
calls than the command line and the service do when they read.
-/

namespace PerfReview

instance : Json.Room := ⟨985, by decide⟩

instance : Yaml.Library := ⟨Yaml.read 485, Yaml.Printer.document⟩

instance : Service.Coercion := ⟨Service.int?, Service.real?⟩

end PerfReview
