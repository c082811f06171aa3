import PerfReview.Number.Amount
import PerfReview.Plan
import PerfReview.Value

/-!
# Limits

The bounds of a run: how many files, how large, how many to a request, and how long to wait between
requests. Every set of limits has passed `Limits.check`: the counts are positive and the delay is
not below zero.
-/

namespace PerfReview

/-- A positive count as it was given: a number, or the truth value that counts as one. -/
inductive Count where
  | number (n : Nat) (positive : 0 < n)
  | truth
  deriving DecidableEq, Repr

namespace Count

def toInt : Count → Int
  | number n _ => n
  | truth => 1

def toJson : Count → Json
  | number n _ => .int n
  | truth => .bool true

def ofJson? : Json → Option Count
  | .int n => if h : 0 < n then some (.number n.toNat (by omega)) else none
  | .bool true => some .truth
  | _ => none

/-- The files of a run where the settings do not say otherwise. -/
def files : Count := number 200 (by decide)

/-- The files of a batch where the settings do not say otherwise. -/
def batch : Count := number 20 (by decide)

/-- The bytes of a file, and of a batch, where the settings do not say otherwise. -/
def bytes : Count := number 102400 (by decide)

theorem toInt_pos (c : Count) : 0 < c.toInt := by
  cases c with
  | number n h => exact Int.natCast_pos.2 h
  | truth => exact Int.one_pos

theorem ofJson?_toJson (c : Count) : ofJson? c.toJson = some c := by
  cases c with
  | number n h => simp [toJson, ofJson?, h]
  | truth => rfl

end Count

structure Limits where
  maxFiles : Count := .files
  batchSize : Count := .batch
  /-- The greatest size of a file in bytes. -/
  maxFileSize : Count := .bytes
  /-- The time between two batches of a group in seconds. -/
  batchDelay : Amount := .real (.finite false Number.Binary64.fullMantissa (-52))
  /-- The greatest size of a batch in bytes. -/
  tokenBudget : Count := .bytes
  deriving DecidableEq, Repr

/-- Why values are no limits. -/
inductive LimitsFault where
  /-- A count is not a positive integer. -/
  | notPositive (name : String) (found : Json)
  | negativeDelay (found : Json)
  /-- The delay cannot be compared with zero. -/
  | delayNotNumber
  | unknownName (name : String)
  /-- The value at fault is too long to be written. -/
  | unwritable

namespace LimitsFault

def notPositiveOr (name : String) (found : Json) : LimitsFault :=
  if found.toValue.isUnwritable then .unwritable else .notPositive name found

def negativeDelayOr (found : Json) : LimitsFault :=
  if found.toValue.isUnwritable then .unwritable else .negativeDelay found

def message : LimitsFault → String
  | notPositive name found =>
    s!"analysis.{name} must be a positive integer (got {found.toValue.spelt})"
  | negativeDelay found =>
    s!"analysis.batch_delay must not be negative (got {found.toValue.spelt})"
  | delayNotNumber => "batch_delay is not a number"
  | unknownName name => s!"unexpected limit {name}"
  | unwritable => Number.tooLongToWriteMessage

end LimitsFault

namespace Limits

def names : List String :=
  ["max_files", "batch_size", "max_file_size", "batch_delay", "token_budget"]

def fields (l : Limits) : List (String × Json) := [
  ("max_files", l.maxFiles.toJson), ("batch_size", l.batchSize.toJson),
  ("max_file_size", l.maxFileSize.toJson), ("batch_delay", l.batchDelay.toJson),
  ("token_budget", l.tokenBudget.toJson)]

def toJson (l : Limits) : Json := .object l.fields

def count (fields : List (String × Json)) (name : String) : Except LimitsFault Count :=
  let v := (Assoc.get? fields name).getD .null
  match Count.ofJson? v with
  | some c => .ok c
  | none => .error (.notPositiveOr name v)

def delay (fields : List (String × Json)) : Except LimitsFault Amount :=
  let v := (Assoc.get? fields "batch_delay").getD .null
  match Amount.ofJson? v with
  | none => .error .delayNotNumber
  | some a => if a.isNegative then .error (.negativeDelayOr v) else .ok a

/-- The limits with given values, unless one is out of bounds. The counts are tested before the
delay. -/
def check (fields : List (String × Json)) : Except LimitsFault Limits := do
  let maxFiles ← count fields "max_files"
  let batchSize ← count fields "batch_size"
  let maxFileSize ← count fields "max_file_size"
  let tokenBudget ← count fields "token_budget"
  let batchDelay ← delay fields
  return { maxFiles, batchSize, maxFileSize, batchDelay, tokenBudget }

def replace (l : Limits) (changes : List (String × Json)) : Except LimitsFault Limits :=
  match changes.find? fun c => c.1 ∉ names with
  | some (name, _) => .error (.unknownName name)
  | none => check (changes.foldl (fun fs c => Assoc.put c.1 c.2 fs) l.fields)

/-- The limits with every value replaced that is not null. -/
def override (l : Limits) (changes : List (String × Json)) : Except LimitsFault Limits :=
  l.replace (changes.filter fun c => match c.2 with | .null => false | _ => true)

/-- The bounds that the limits set for a plan. -/
def bounds (l : Limits) : Bounds :=
  ⟨l.maxFiles.toInt, l.batchSize.toInt, l.maxFileSize.toInt, l.tokenBudget.toInt⟩

theorem bounds_usable (l : Limits) : l.bounds.Usable :=
  ⟨l.maxFiles.toInt_pos, l.batchSize.toInt_pos, l.maxFileSize.toInt_pos, l.tokenBudget.toInt_pos⟩

end Limits

end PerfReview
