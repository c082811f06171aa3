import PerfReview.Number.Layout
import PerfReview.Score
import PerfReview.Source

/-!
# Plans

The division of the candidate files into batches, each sent to the model in one request. The best
`maxFiles` files are selected; each group is packed on its own, smallest files first, and a batch is
closed when the next file would exceed the count or the budget. Files that fit no batch are skipped,
and files without a group are left out.
-/

namespace PerfReview

/-- Files ordered by falling score; equal scores keep their order. -/
def prioritize (files : List Source) : List Source :=
  files.mergeSort fun a b => score b.relative b.size ≤ score a.relative a.size

/-- Files of one group for one request. -/
structure Batch where
  group : Group
  files : List Source
  deriving DecidableEq, Repr

def totalSize (files : List Source) : Int := files.foldr (fun f n => f.size + n) 0

namespace Batch

def size (b : Batch) : Int := totalSize b.files

def paths (b : Batch) : List String := b.files.map (·.relative)

/-- The batch as messages name it, `number` being its place in the run. -/
def label (b : Batch) (number : Nat) : String :=
  let paths := String.intercalate ", " b.paths
  s!"{b.group.name} batch {Number.natText number} ({paths})"

end Batch

/-- The bounds of a plan. -/
structure Bounds where
  maxFiles : Int
  batchSize : Int
  maxFileSize : Int
  tokenBudget : Int
  deriving DecidableEq, Repr

/-- Bounds that a plan can be made under. -/
def Bounds.Usable (b : Bounds) : Prop :=
  0 < b.maxFiles ∧ 0 < b.batchSize ∧ 0 < b.maxFileSize ∧ 0 < b.tokenBudget

instance (b : Bounds) : Decidable b.Usable := by unfold Bounds.Usable; infer_instance

structure Plan where
  /-- The batches in the order of the run. -/
  batches : List Batch
  /-- Files beyond the greatest number of files. -/
  dropped : List Source
  /-- Files too large for a batch. -/
  skipped : List Source
  deriving DecidableEq, Repr

namespace Plan

/-- A file that a batch of its own could hold. -/
def fits (b : Bounds) (f : Source) : Bool := f.size ≤ b.maxFileSize && f.size ≤ b.tokenBudget

/-- The batch under construction has no room for a further file. -/
def isFull (b : Bounds) (current : List Source) (f : Source) : Bool :=
  b.batchSize ≤ current.length || b.tokenBudget < totalSize current + f.size

/-- Cuts a sequence of files into runs, closing a run when the next file has no room in it.
`current` is the run under construction. -/
def runs (b : Bounds) (current : List Source) : List Source → List (List Source)
  | [] => if current.isEmpty then [] else [current]
  | f :: rest =>
    if !current.isEmpty && isFull b current f then current :: runs b [f] rest
    else runs b (current ++ [f]) rest

/-- Files ordered by size; equal sizes keep their order. -/
def bySize (files : List Source) : List Source := files.mergeSort fun a b => a.size ≤ b.size

/-- The batches of the files of one group. -/
def pack (b : Bounds) (g : Group) (files : List Source) : List Batch :=
  (runs b [] ((bySize files).filter (fits b))).map (⟨g, ·⟩)

def ofGroup (g : Group) (files : List Source) : List Source :=
  files.filter (·.group = some g)

def byGroup (files : List Source) : List (Group × List Source) :=
  Group.all.map fun g => (g, ofGroup g files)

/-- The plan for files in order of priority, under bounds known to be usable. -/
def ofUsable (b : Bounds) (files : List Source) : Plan :=
  let selected := files.take b.maxFiles.toNat
  { batches := Group.all.flatMap fun g => pack b g (ofGroup g selected)
    dropped := files.drop b.maxFiles.toNat
    skipped := Group.all.flatMap fun g =>
      (bySize (ofGroup g selected)).filter fun f => !fits b f }

/-- What is said of bounds that are not positive. -/
def unusableMessage : String := "Batch planner limits must be positive"

/-- The plan for files in order of priority, unless a bound is not positive. -/
def make? (b : Bounds) (files : List Source) : Option Plan :=
  if b.Usable then some (ofUsable b files) else none

def files (p : Plan) : List Source := p.batches.flatMap (·.files)

/-- The batches of each group that has some, in the order of the groups. -/
def groups (p : Plan) : List (Group × List Batch) :=
  (Group.all.map fun g => (g, p.batches.filter (·.group = g))).filter (!·.2.isEmpty)

/-- Why a file was skipped. -/
def skipText (b : Bounds) (f : Source) : String :=
  let size := Number.intText f.size
  if b.maxFileSize < f.size then
    s!"Skipping {f.relative} ({size} bytes exceeds max file size {Number.intText b.maxFileSize})"
  else
    s!"Skipping {f.relative} ({size} bytes exceeds batch budget {Number.intText b.tokenBudget})"

def entries (b : Bounds) (candidates : List Source) (p : Plan) : List Log.Entry :=
  let part := "planning.batcher"
  let selected := (candidates.take b.maxFiles.toNat).length
  p.dropped.map (fun f => .debug part s!"Over file cap, not analysed: {f.relative}") ++
    p.skipped.map (fun f => .debug part (skipText b f)) ++
    [.debug part
      s!"Planned {Number.natText p.batches.length} batch(es) from {Number.natText selected} file(s)"]

end Plan

end PerfReview
