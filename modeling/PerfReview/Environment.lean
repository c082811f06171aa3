import PerfReview.Assoc

/-!
# The environment

The variables that the program is started with. A variable that is empty counts as not set.
-/

namespace PerfReview

abbrev Environment := List (String × String)

namespace Environment

/-- The value of a variable that is set and not empty. -/
def given? (env : Environment) (name : String) : Option String :=
  (Assoc.get? env name).filter (· ≠ "")

/-- The value of the first of several variables that is set and not empty. -/
def first? (env : Environment) (names : List String) : Option String := names.findSome? env.given?

end Environment

end PerfReview
