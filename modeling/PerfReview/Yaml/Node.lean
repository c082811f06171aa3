import PerfReview.Yaml.Tag
import PerfReview.Yaml.Token

/-!
# Nodes

The nodes of a document: tagged texts, lists and maps. A list or a map holds the places of its parts
among the nodes, so an alias is the place of the node that its anchor names, which may be a node
around the alias. There is at most one document in a text.
-/

namespace PerfReview.Yaml

inductive Node where
  | scalar (tag : Tag) (s : String)
  | list (tag : Tag) (items : List Nat)
  | map (tag : Tag) (entries : List (Nat × Nat))
  deriving DecidableEq, Repr

namespace Node

def tag : Node → Tag
  | .scalar t _ | .list t _ | .map t _ => t

/-- What is left to read: the tokens with the fault behind them; and what has been read: the nodes,
the places of those with names, and the texts that the handles of tags stand for. -/
structure Source where
  tokens : List Token
  fault : Option Fault
  nodes : Array Node := #[]
  anchors : List (String × Nat) := []
  handles : List (String × String) := []

abbrev Reading := StateT Source (Except Fault)

/-- The next token; the fault of the tokens shows where they end. -/
def peek : Reading (Option Token) := do
  let s ← get
  match s.tokens with
  | t :: _ => return some t
  | [] =>
    match s.fault with
    | some f => throw f
    | none => return none

def advance : Reading Unit := modify fun s => { s with tokens := s.tokens.tail }

def accept (t : Token) : Reading Bool := do
  if (← peek) = some t then advance; return true else return false

def expect (t : Token) : Reading Unit := do
  unless ← accept t do throw .malformed

def isNext (ts : List Token) : Reading Bool := do
  match ← peek with
  | some t => return t ∈ ts
  | none => return false

def add (n : Node) : Reading Nat :=
  modifyGet fun s => (s.nodes.size, { s with nodes := s.nodes.push n })

def fill (place : Nat) (n : Node) : Reading Unit :=
  modify fun s => { s with nodes := s.nodes.setIfInBounds place n }

/-- A node that is not written. -/
def empty : Reading Nat := add (.scalar .null "")

def anchor? : Reading (Option String) := do
  match ← peek with
  | some (.anchor name) => advance; return some name
  | _ => return none

def tagName? : Reading (Option TagName) := do
  match ← peek with
  | some (.tag name) => advance; return some name
  | _ => return none

/-- The anchor and the tag of a node, in either order. -/
def properties : Reading (Option String × Option TagName) := do
  match ← anchor? with
  | some a => return (some a, ← tagName?)
  | none =>
    match ← tagName? with
    | some t => return (← anchor?, some t)
    | none => return (none, none)

def fullName (name : TagName) : Reading String := do
  match name.handle with
  | none => return name.suffix
  | some h =>
    match Assoc.get? (← get).handles h with
    | some start => return start ++ name.suffix
    | none => throw .malformed

def addNamed (anchor : Option String) (n : Node) : Reading Nat := do
  let place ← add n
  if let some a := anchor then modify fun s => { s with anchors := (a, place) :: s.anchors }
  return place

/-- Adds a list or map that `hollow` stands for while its parts are read, if there is room for it. -/
def addAround (room : Nat) (anchor : Option String) (hollow : Node) (read : Reading Node) :
    Reading Nat := do
  if room = 0 then throw .tooDeep
  let place ← addNamed anchor hollow
  fill place (← read)
  return place

def checkNew (anchor : Option String) : Reading Unit := do
  match anchor with
  | some a => if ((← get).anchors.find? (·.1 = a)).isSome then throw .malformed
  | none => return

/-- The tag that a node has by its full name, or by default. -/
def tagOr (default : Tag) : Option String → Tag
  | none | some "!" => default
  | some name => .ofName name

mutual

/-- Reads a node in which `room` lists and maps may stand within each other; in block notation it may
be a block, or a list that is not indented. -/
def node (inBlock flush : Bool) (room : Nat) : Nat → Reading Nat
  | 0 => throw .malformed
  | fuel + 1 => do
    if let some (.alias name) ← peek then
      advance
      match (← get).anchors.find? (·.1 = name) with
      | some (_, place) => return place
      | none => throw .malformed
    let (anchor, name) ← properties
    let tag ← name.mapM fullName
    checkNew anchor
    let listOf (read : Reading (List Nat)) : Reading Nat :=
      addAround room anchor (.list (tagOr .list tag) [])
        (do return .list (tagOr .list tag) (← read))
    let mapOf (read : Reading (List (Nat × Nat))) : Reading Nat :=
      addAround room anchor (.map (tagOr .map tag) [])
        (do return .map (tagOr .map tag) (← read))
    match ← peek with
    | some (.text isPlain s) =>
      advance
      let tag := tagOr (if isPlain || tag.isSome then .ofPlain s else .text) tag
      addNamed anchor (.scalar tag s)
    | next =>
      if flush && next = some .entry then listOf (flushEntries (room - 1) fuel)
      else if next = some .flowListStart then
        advance
        listOf (flowItems true (room - 1) fuel)
      else if next = some .flowMapStart then
        advance
        mapOf (flowEntries true (room - 1) fuel)
      else if inBlock && next = some .listStart then
        advance
        listOf (blockItems (room - 1) fuel)
      else if inBlock && next = some .mapStart then
        advance
        mapOf (blockEntries (room - 1) fuel)
      else if anchor.isSome || tag.isSome then addNamed anchor (.scalar (tagOr .null tag) "")
      else throw .malformed
  termination_by structural fuel => fuel

/-- The items of an indented list. -/
def blockItems (room : Nat) : Nat → Reading (List Nat)
  | 0 => throw .malformed
  | fuel + 1 => do
    if ← accept .entry then
      let n ← if ← isNext [.entry, .blockEnd] then empty else node true false room fuel
      return n :: (← blockItems room fuel)
    else
      expect .blockEnd
      return []
  termination_by structural fuel => fuel

/-- The items of a list that is not indented. -/
def flushEntries (room : Nat) : Nat → Reading (List Nat)
  | 0 => throw .malformed
  | fuel + 1 => do
    if ← accept .entry then
      let n ←
        if ← isNext [.entry, .key, .value, .blockEnd] then empty else node true false room fuel
      return n :: (← flushEntries room fuel)
    else return []
  termination_by structural fuel => fuel

/-- A key or value of an indented map. -/
def blockPart (room : Nat) : Nat → Reading Nat
  | 0 => throw .malformed
  | fuel + 1 => do
    if ← isNext [.key, .value, .blockEnd] then empty else node true true room fuel
  termination_by structural fuel => fuel

def blockEntries (room : Nat) : Nat → Reading (List (Nat × Nat))
  | 0 => throw .malformed
  | fuel + 1 => do
    if ← accept .key then
      let k ← blockPart room fuel
      let v ← if ← accept .value then blockPart room fuel else empty
      return (k, v) :: (← blockEntries room fuel)
    else
      expect .blockEnd
      return []
  termination_by structural fuel => fuel

/-- A node in brackets before one of the tokens `ends`. -/
def flowPart (ends : List Token) (room : Nat) : Nat → Reading Nat
  | 0 => throw .malformed
  | fuel + 1 => do
    if ← isNext ends then empty else node false false room fuel
  termination_by structural fuel => fuel

/-- The items of a list in brackets; the flag says that none was read yet. -/
def flowItems (isFirst : Bool) (room : Nat) : Nat → Reading (List Nat)
  | 0 => throw .malformed
  | fuel + 1 => do
    if ← accept .flowListEnd then return []
    unless isFirst do expect .flowEntry
    if ← accept .key then
      let n ← addAround room none (.map .map []) (do
        let k ← flowPart [.value, .flowEntry, .flowListEnd] (room - 1) fuel
        let v ←
          if ← accept .value then flowPart [.flowEntry, .flowListEnd] (room - 1) fuel else empty
        return .map .map [(k, v)])
      return n :: (← flowItems false room fuel)
    else if ← accept .flowListEnd then return []
    else
      let n ← node false false room fuel
      return n :: (← flowItems false room fuel)
  termination_by structural fuel => fuel

/-- The entries of a map in braces; the flag says that none was read yet. -/
def flowEntries (isFirst : Bool) (room : Nat) : Nat → Reading (List (Nat × Nat))
  | 0 => throw .malformed
  | fuel + 1 => do
    if ← accept .flowMapEnd then return []
    unless isFirst do expect .flowEntry
    if ← accept .key then
      let k ← flowPart [.value, .flowEntry, .flowMapEnd] room fuel
      let v ← if ← accept .value then flowPart [.flowEntry, .flowMapEnd] room fuel else empty
      return (k, v) :: (← flowEntries false room fuel)
    else if ← accept .flowMapEnd then return []
    else
      let k ← node false false room fuel
      return (k, ← empty) :: (← flowEntries false room fuel)
  termination_by structural fuel => fuel

end

/-- The directives in front of a document: whether there was one on the version, and the handles. -/
def directives : Nat → Bool → List (String × String) → Reading (List (String × String))
  | 0, _, _ => throw .malformed
  | fuel + 1, hasVersion, handles => do
    match ← peek with
    | some (.directive d) =>
      advance
      match d with
      | .version major =>
        if hasVersion || major ≠ 1 then throw .malformed
        directives fuel true handles
      | .tag handle replacement =>
        if (Assoc.get? handles handle).isSome then throw .malformed
        directives fuel hasVersion (Assoc.put handle replacement handles)
      | .unknown => directives fuel hasVersion handles
    | _ => return handles

/-- The handles that need no directive. -/
def standardHandles : List (String × String) := [("!", "!"), ("!!", Tag.standard)]

def skipEnds : Nat → Reading Unit
  | 0 => return
  | fuel + 1 => do if ← accept .documentEnd then skipEnds fuel

/-- The start of a further document, or the end of the text. -/
def atEnd (fuel : Nat) : Reading Bool := do
  skipEnds fuel
  return (← peek).isNone

/-- The place of the outermost node of the document, if there is one. -/
def document (room fuel : Nat) : Reading (Option Nat) := do
  let setHandles (hs : List (String × String)) : Reading Unit :=
    modify fun s => { s with handles := hs ++ standardHandles }
  let n? ←
    match ← peek with
    | none => return none
    | some (.directive _) | some .documentStart =>
      setHandles (← directives fuel false [])
      expect .documentStart
      match ← peek with
      | none | some (.directive _) | some .documentStart | some .documentEnd => empty
      | _ => node true false room fuel
    | some _ =>
      setHandles []
      node true false room fuel
  if ← atEnd fuel then return some n? else throw .malformed

/-- The nodes of a text, and the place of the outermost one, if it holds a document. -/
def ofText (room : Nat) (s : String) : Except Fault (Array Node × Option Nat) := do
  let (tokens, fault) := Token.ofText s
  let (root, source) ← (document room (2 * tokens.length + 4)).run { tokens, fault }
  return (source.nodes, root)

end Node

end PerfReview.Yaml
