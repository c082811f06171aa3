import PerfReview.Value

/-!
# Documents

The value of a document: its containers refer to each other by their places, so a container may stand
in several others, and in itself. `Document.value` unfolds an item into a value, in which a container
within itself is cut off; `Document.outline` unfolds it down to a depth.
-/

namespace PerfReview.Yaml

namespace Key

/-- Numbers and truth values that are one key. -/
def toInt? : Value → Option Int
  | .int n => some n
  | .bool b => some (if b then 1 else 0)
  | .float x => x.toInt?
  | _ => none

def same (a b : Value) : Bool :=
  match toInt? a, toInt? b with
  | some m, some n => m = n
  | none, none =>
    match a, b with
    | .null, .null => true
    | .float x, .float y => x = y
    | .text s, .text t => s = t
    | .bytes s, .bytes t => s = t
    | .day d, .day e => d = e
    | .moment m, .moment n => m.isSame n
    | _, _ => false
  | _, _ => false

variable {α : Type}

/-- Writes an entry: what stands at a key that is there is replaced. -/
def put (k : Value) (v : α) : List (Value × α) → List (Value × α)
  | [] => [(k, v)]
  | (k', v') :: m => if same k' k then (k', v) :: m else (k', v') :: put k v m

/-- The map of entries written one after the other. -/
def ofEntries (es : List (Value × α)) : List (Value × α) :=
  es.foldl (fun m e => put e.1 e.2 m) []

end Key

/-- What stands in a container: a value without parts, or the place of another container. -/
inductive Item where
  | plain (v : Value)
  | container (place : Nat)
  deriving DecidableEq

inductive Container where
  | list (items : List Item)
  | pairs (entries : List (Item × Item))
  | map (entries : List (Value × Item))
  | set (items : List Value)
  deriving DecidableEq

namespace Container

def isMap : Container → Bool
  | map _ => true
  | _ => false

def isEmpty : Container → Bool
  | list items => items.isEmpty
  | pairs entries => entries.isEmpty
  | map entries => entries.isEmpty
  | set items => items.isEmpty

/-- The value of a container whose items have the given values. -/
def value (f : Item → Value) : Container → Value
  | list items => .list (items.map f)
  | pairs entries => .list (entries.map fun (k, v) => .tuple [f k, f v])
  | map entries => .map (entries.map fun (k, v) => (k, f v))
  | set items => .set items

end Container

structure Document where
  root : Item
  containers : Array (Option Container)
  deriving DecidableEq

namespace Document

def containerAt? (d : Document) (place : Nat) : Option Container := (d.containers[place]?).join

/-- The value that stands for a container that is not shown. -/
def hidden (d : Document) (place : Nat) : Value := .again ((d.containerAt? place).any (·.isMap))

/-- The value of an item within the containers `outer`; the fuel is longer than a chain of containers
none of which stands in itself. -/
def valueWithin (d : Document) : Nat → List Nat → Item → Value
  | _, _, .plain v => v
  | 0, _, .container place => d.hidden place
  | fuel + 1, outer, .container place =>
    if place ∈ outer then d.hidden place
    else
      match d.containerAt? place with
      | some c => c.value (d.valueWithin fuel (place :: outer))
      | none => d.hidden place

/-- The value of an item; a container within itself is not shown again. -/
def value (d : Document) (item : Item) : Value := d.valueWithin (d.containers.size + 1) [] item

/-- The value of an item down to a depth; the containers at that depth are not shown. -/
def outline (d : Document) : Nat → Item → Value
  | _, .plain v => v
  | 0, .container place => d.hidden place
  | depth + 1, .container place =>
    match d.containerAt? place with
    | some c => c.value (d.outline depth)
    | none => d.hidden place

/-- The item stands for something: it is neither null, false, zero nor empty. -/
def isSubstantial (d : Document) : Item → Bool
  | .plain v => v.isSubstantial
  | .container place => (d.containerAt? place).any (!·.isEmpty)

def entries? (d : Document) : Item → Option (List (Value × Item))
  | .plain _ => none
  | .container place =>
    match d.containerAt? place with
    | some (.map entries) => some entries
    | _ => none

end Document

end PerfReview.Yaml
