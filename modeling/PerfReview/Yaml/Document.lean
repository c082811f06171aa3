import PerfReview.Yaml.Container
import PerfReview.Yaml.Node
import PerfReview.Yaml.TaggedText

/-!
# The value of a document

The value of a document is found from its outermost node inwards, container by container. A map takes
in the maps that its merge keys name, which give way to its own entries; that changes the node of the
map, and so all that refers to it. Every node has one value, however often it is referred to.
-/

namespace PerfReview.Yaml

/-- The finding of a value so far. -/
structure Finding where
  /-- The nodes, some with their merges carried out. -/
  nodes : Array Node
  /-- The values of nodes by their places. -/
  items : Array (Option Item)
  /-- The containers by the places of their nodes. -/
  containers : Array (Option Container)
  /-- The number of merge keys at the start. -/
  merges : Nat
  /-- The places of the nodes that are containers, in the order in which they are met. -/
  met : Array Nat := #[]

abbrev Find := StateT Finding (Except Fault)

namespace Node

/-- Tags of nodes whose parts are read after the node itself. -/
def isContainer (n : Node) : Bool :=
  match n.tag with
  | .orderedMap | .pairs | .set | .list | .map => true
  | _ => false

def entries : Node → List (Nat × Nat)
  | .map _ es => es
  | _ => []

def withTag (tag : Tag) : Node → Node
  | .scalar _ s => .scalar tag s
  | .list _ items => .list tag items
  | .map _ es => .map tag es

end Node

def Node.mergeCount (nodes : Array Node) : Nat :=
  let isMerge (k : Nat) : Bool := (nodes[k]?).any (·.tag = .merge)
  nodes.foldl (fun count n => count + (n.entries.filter fun e => isMerge e.1).length) 0

namespace Find

def nodeAt (place : Nat) : Find Node := return ((← get).nodes[place]?).getD (.scalar .null "")

def tagAt (place : Nat) : Find Tag := return (← nodeAt place).tag

def change (place : Nat) (n : Node) : Find Unit :=
  modify fun f => { f with nodes := f.nodes.setIfInBounds place n }

/-! ## Texts -/

/-- The text of a node: its own, or that of the default value of a map. The fuel is longer than a
chain of maps that does not lead back to itself. -/
def textOf : Nat → Nat → Find String
  | 0, _ => throw .tooDeep
  | fuel + 1, place => do
    match ← nodeAt place with
    | .scalar _ s => return s
    | .map _ es =>
      match ← es.findM? fun (k, _) => return (← tagAt k) = .value with
      | some (_, v) => textOf fuel v
      | none => throw .malformed
    | .list .. => throw .malformed

/-- The value of a node that is no container. -/
def plain (place : Nat) : Find Value := do
  let n ← nodeAt place
  unless n.tag.isScalar do throw .malformed
  let s ← textOf ((← get).nodes.size + 1) place
  match n with
  | .scalar tag _ => Scalar.value tag s
  | n => if n.tag = .time then throw .timeOfMap else Scalar.value n.tag s

/-! ## Merges -/

/-- Takes the first merge key off a map and gives the place of its value. -/
def takeMerge (place : Nat) : Find (Option Nat) := do
  let n ← nodeAt place
  match ← n.entries.findM? fun (k, _) => return (← tagAt k) = .merge with
  | none => return none
  | some e =>
    change place (.map n.tag (n.entries.erase e))
    return some e.2

/-- Gives a map the entries that its merge keys have brought, in front of its own. What is marked as
a default value is a text where it is a key. -/
def settle (place : Nat) (brought : List (Nat × Nat)) : Find Unit := do
  let n ← nodeAt place
  for (k, _) in n.entries do
    if (← tagAt k) = .value then change k ((← nodeAt k).withTag .text)
  unless brought.isEmpty do change place (.map n.tag (brought ++ n.entries))

/-- Takes the merge keys off a map and gives the entries that they bring. Every round takes one key
off one map, and no round adds one, so the fuel is the number of merge keys. -/
def gather : Nat → Nat → Find (List (Nat × Nat))
  | 0, _ => return []
  | fuel + 1, place => do
    let some value ← takeMerge place | return []
    let broughtBy (place : Nat) : Find (List (Nat × Nat)) := do
      settle place (← gather fuel place)
      return (← nodeAt place).entries
    let brought ←
      match ← nodeAt value with
      | .map .. => broughtBy value
      | .list _ items =>
        let lists ← items.mapM fun item => do
          match ← nodeAt item with
          | .map .. => broughtBy item
          | _ => throw .malformed
        pure lists.reverse.flatten
      | .scalar .. => throw .malformed
    return brought ++ (← gather fuel place)

/-- The entries of a map with those that its merge keys bring. -/
def mergedEntries (place : Nat) : Find (List (Nat × Nat)) := do
  match ← nodeAt place with
  | .map .. =>
    settle place (← gather (← get).merges place)
    return (← nodeAt place).entries
  | _ => throw .malformed

/-! ## Containers -/

/-- The value of a node; of a container, its parts are left for later. -/
def visit (place : Nat) : Find Item := do
  if let some (some item) := (← get).items[place]? then return item
  let item ←
    if (← nodeAt place).isContainer then
      modify fun f => { f with met := f.met.push place }
      pure (.container place)
    else (.plain ·) <$> plain place
  modify fun f => { f with items := f.items.setIfInBounds place (some item) }
  return item

/-- The entries of a map, whose keys are no containers. -/
def entriesOf (place : Nat) : Find (List (Value × Item)) := do
  let entries ← (← mergedEntries place).mapM fun (k, v) => do
    let .plain key ← visit k | throw .malformed
    return (key, ← visit v)
  return Key.ofEntries entries

/-- The pairs of a list of maps with one entry each. -/
def pairsOf (place : Nat) : Find (List (Item × Item)) := do
  let .list _ items ← nodeAt place | throw .malformed
  items.mapM fun item => do
    let .map _ [(k, v)] ← nodeAt item | throw .malformed
    return (← visit k, ← visit v)

def containerAt (place : Nat) : Find Container := do
  match ← tagAt place with
  | .list =>
    let .list _ items ← nodeAt place | throw .malformed
    return .list (← items.mapM visit)
  | .map => return .map (← entriesOf place)
  | .set => return .set ((← entriesOf place).map (·.1))
  | _ => return .pairs (← pairsOf place)

/-- Finds the containers met from the one of the given number on. Every node is met once at most, so
the fuel is the number of nodes. -/
def containersFrom (number : Nat) : Nat → Find Unit
  | 0 => return
  | fuel + 1 => do
    let some place := (← get).met[number]? | return
    let c ← containerAt place
    modify fun f => { f with containers := f.containers.setIfInBounds place (some c) }
    containersFrom (number + 1) fuel

/-- Finds the value of a document from the place of its outermost node. -/
def document (place : Nat) : Find Document := do
  let root ← visit place
  containersFrom 0 (← get).nodes.size
  return ⟨root, (← get).containers⟩

end Find

/-- The value of a document, in which `room` lists and maps may stand within each other; a text without
one stands for null. -/
def read (room : Nat) (s : String) : Except Fault Document := do
  let (nodes, root) ← Node.ofText room s
  match root with
  | none => return ⟨.plain .null, #[]⟩
  | some place =>
    let unknown {α : Type} : Array (Option α) := Array.replicate nodes.size none
    (Find.document place).run'
      { nodes, items := unknown, containers := unknown, merges := Node.mergeCount nodes }

end PerfReview.Yaml
