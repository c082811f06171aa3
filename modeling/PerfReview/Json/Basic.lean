import PerfReview.Assoc
import PerfReview.Number.Binary64

/-!
# JSON values

The values of JSON documents. Integers and floating-point numbers are kept apart, and an object
keeps the order of its keys.
-/

namespace PerfReview

inductive Json where
  | null
  | bool (b : Bool)
  | int (n : Int)
  | float (x : Number.Binary64)
  | text (s : String)
  | list (items : List Json)
  | object (fields : List (String × Json))

namespace Json

/-- The value of a field, where the value is an object that has it. -/
def field? : Json → String → Option Json
  | .object fields, name => Assoc.get? fields name
  | _, _ => none

/-- The value of a field, null where it is missing. -/
def fieldOrNull (j : Json) (name : String) : Json := (j.field? name).getD .null

def text? : Json → Option String
  | .text s => some s
  | _ => none

def list? : Json → Option (List Json)
  | .list items => some items
  | _ => none

def object? : Json → Option (List (String × Json))
  | .object fields => some fields
  | _ => none

def isObject : Json → Bool
  | .object _ => true
  | _ => false

/-- Values that stand for something: neither null, false, zero nor empty. -/
def isSubstantial : Json → Bool
  | .null => false
  | .bool b => b
  | .int n => n ≠ 0
  | .float x => !x.isZero
  | .text s => s ≠ ""
  | .list items => !items.isEmpty
  | .object fields => !fields.isEmpty

mutual

/-- The value with null for each number that is not finite. -/
def withFinite : Json → Json
  | .float x => if x.isFinite then .float x else .null
  | .list items => .list (withFiniteItems items)
  | .object fields => .object (withFiniteFields fields)
  | j => j

def withFiniteItems : List Json → List Json
  | [] => []
  | v :: vs => withFinite v :: withFiniteItems vs

def withFiniteFields : List (String × Json) → List (String × Json)
  | [] => []
  | (k, v) :: fs => (k, withFinite v) :: withFiniteFields fs

end

def texts (items : List String) : Json := .list (items.map .text)

end Json

end PerfReview
