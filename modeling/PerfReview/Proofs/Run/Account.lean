import Mathlib.Algebra.GroupWithZero.Nat
import PerfReview.Run

/-!
# The account of a run

`Oracle.calls` are the calls for a sequence of batches, one for each, the model going from state to
state, and `Result.take` enters one of them in a result. `Account root cs r` says that the result
`r` holds what the calls `cs` gave: the files that were sent, the labels of the calls without an
answer, and the findings and rejections of the answers, each in the order of the calls.
-/

namespace PerfReview

variable {σ : Type}

/-! ## Endings -/

namespace Ending

def answer? : Ending → Option String
  | text s => if Text.isAllBlank s then none else some s
  | _ => none

/-- The call failed, or it gave a blank text or no text. -/
def isBare : Ending → Bool
  | text s => Text.isAllBlank s
  | noText | refused _ | failed _ => true
  | timedOut | silent => false

theorem reply_cases (e : Ending) :
    (∃ s, e.answer? = some s ∧ e.isBare = false ∧ e.isOpen = false ∧ Reply.ofEnding e = .answer s) ∨
    (∃ reason, e.answer? = none ∧ e.isBare = true ∧ e.isOpen = false ∧
      Reply.ofEnding e = .failed reason) ∨
    (∃ reason, e.answer? = none ∧ e.isBare = false ∧ e.isOpen = true ∧
      Reply.ofEnding e = .cancelled reason) := by
  cases e with
  | text s =>
    cases h : Text.isAllBlank s with
    | false => exact .inl ⟨s, by simp [answer?, isBare, isOpen, Reply.ofEnding, h]⟩
    | true => exact .inr (.inl ⟨_, by simp [answer?, isBare, isOpen, Reply.ofEnding, h]; rfl⟩)
  | noText => exact .inr (.inl ⟨_, rfl, rfl, rfl, rfl⟩)
  | refused reason => exact .inr (.inl ⟨_, rfl, rfl, rfl, rfl⟩)
  | failed reason => exact .inr (.inl ⟨_, rfl, rfl, rfl, rfl⟩)
  | timedOut => exact .inr (.inr ⟨_, rfl, rfl, rfl, rfl⟩)
  | silent => exact .inr (.inr ⟨_, rfl, rfl, rfl, rfl⟩)

end Ending

/-! ## Calls -/

/-- A call for a batch. -/
structure Exchange where
  /-- The place of the batch in the run, from one. -/
  number : Nat
  batch : Batch
  ending : Ending
  /-- The token fires during the call. -/
  fires : Bool

namespace Exchange

/-- The label of the batch, if it is left without an answer. -/
def failure? (c : Exchange) : Option String :=
  if c.ending.isBare then some (c.batch.label c.number) else none

/-- The answer as it is read for the batch. -/
def response? (root : String) (c : Exchange) : Option Response :=
  c.ending.answer?.map (Response.read (Index.ofFiles c.batch.files (some root)))

end Exchange

namespace Oracle

variable {o : Oracle σ} {audit : Option Audit} {st : σ} {n : Nat} {bs cs : List Batch}

/-- The state of the model after the calls for batches. -/
def after (o : Oracle σ) (audit : Option Audit) (st : σ) (bs : List Batch) : σ :=
  bs.foldl (fun st b => (o.call st (Request.ofBatch b audit)).2) st

def calls (o : Oracle σ) (audit : Option Audit) : σ → Nat → List Batch → List Exchange
  | _, _, [] => []
  | st, n, b :: bs =>
    let r := Request.ofBatch b audit
    let ending := (o.call st r).1
    ⟨n, b, ending, ending.isOpen || o.interrupts st r⟩ :: o.calls audit (o.call st r).2 (n + 1) bs

theorem calls_append : o.calls audit st n (bs ++ cs) =
    o.calls audit st n bs ++ o.calls audit (o.after audit st bs) (n + bs.length) cs := by
  induction bs generalizing st n with
  | nil => rfl
  | cons b bs ih =>
    rw [List.cons_append, calls, ih, List.length_cons, Nat.add_right_comm, Nat.add_assoc]
    rfl

theorem map_batch_calls (o : Oracle σ) (audit : Option Audit) (st : σ) (n : Nat)
    (bs : List Batch) : (o.calls audit st n bs).map (·.batch) = bs := by
  induction bs generalizing st n with
  | nil => rfl
  | cons b bs ih => rw [calls, List.map_cons, ih]

theorem flatMap_paths_calls : (o.calls audit st n bs).flatMap (·.batch.paths) =
    bs.flatMap (·.paths) := by
  rw [← List.flatMap_map (fun c : Exchange => c.batch), map_batch_calls]

end Oracle

/-! ## Entering calls in a result -/

theorem Findings.ofSeverity_foldl_add (is : List Issue) (f : Findings) (v : Severity) :
    (is.foldl (fun f i => f.add i) f).ofSeverity v =
      f.ofSeverity v ++ is.filter (·.severity = v) := by
  induction is generalizing f with
  | nil => simp
  | cons i is ih =>
    rw [List.foldl_cons, ih, Findings.ofSeverity_add]
    by_cases h : i.severity = v <;> simp [h]

namespace Result

/-- The result with the files of a batch taken up. -/
def begin (b : Batch) (r : Result) : Result :=
  b.paths.foldl (fun r path => r.takeUp path) { r with analyzed := r.analyzed ++ b.paths }

def take (root : String) (c : Exchange) (r : Result) : Result :=
  let r := r.begin c.batch
  match c.response? root with
  | some a => { r.addAll a.issues with rejectedCount := r.rejectedCount + a.rejected.length }
  | none => { r with failed := r.failed ++ c.failure?.toList }

theorem takeUps_eq (paths : List String) (r : Result) :
    ∃ m, paths.foldl (fun r path => r.takeUp path) r = { r with byFile := m } := by
  induction paths generalizing r with
  | nil => exact ⟨r.byFile, rfl⟩
  | cons path paths ih =>
    obtain ⟨m, e⟩ := ih (r.takeUp path)
    refine ⟨m, ?_⟩
    rw [List.foldl_cons, e]
    unfold takeUp
    split <;> rfl

theorem begin_eq (b : Batch) (r : Result) :
    ∃ m, r.begin b = { r with analyzed := r.analyzed ++ b.paths, byFile := m } :=
  takeUps_eq b.paths _

theorem addAll_eq (is : List Issue) (r : Result) : ∃ m, r.addAll is =
    { r with findings := is.foldl (fun f i => f.add i) r.findings, byFile := m } := by
  induction is generalizing r with
  | nil => exact ⟨r.byFile, rfl⟩
  | cons i is ih =>
    obtain ⟨m, e⟩ := ih (r.add i)
    exact ⟨m, e⟩

theorem take_frame (root : String) (c : Exchange) (r : Result) :
    (r.take root c).skipped = r.skipped ∧ (r.take root c).batchCount = r.batchCount ∧
      (r.take root c).target = r.target := by
  obtain ⟨m, e⟩ := r.begin_eq c.batch
  unfold take
  rw [e]
  cases c.response? root with
  | none => exact ⟨rfl, rfl, rfl⟩
  | some a =>
    obtain ⟨m', e'⟩ := addAll_eq a.issues
      { r with analyzed := r.analyzed ++ c.batch.paths, byFile := m }
    simp only [e', and_self]

theorem foldl_take_frame (root : String) (cs : List Exchange) (r : Result) :
    (cs.foldl (fun r c => r.take root c) r).skipped = r.skipped ∧
      (cs.foldl (fun r c => r.take root c) r).batchCount = r.batchCount ∧
      (cs.foldl (fun r c => r.take root c) r).target = r.target := by
  induction cs generalizing r with
  | nil => exact ⟨rfl, rfl, rfl⟩
  | cons c cs ih =>
    obtain ⟨hskipped, hcount, htarget⟩ := take_frame root c r
    obtain ⟨hskipped', hcount', htarget'⟩ := ih (r.take root c)
    exact ⟨hskipped'.trans hskipped, hcount'.trans hcount, htarget'.trans htarget⟩

end Result

/-! ## Accounts -/

/-- The result holds what the calls gave. -/
structure Account (root : String) (cs : List Exchange) (r : Result) : Prop where
  analyzed : r.analyzed = cs.flatMap (·.batch.paths)
  failed : r.failed = cs.filterMap (·.failure?)
  findings : ∀ v, r.findings.ofSeverity v =
    (cs.filterMap (·.response? root)).flatMap fun a => a.issues.filter (·.severity = v)
  rejectedCount : r.rejectedCount =
    ((cs.filterMap (·.response? root)).map (·.rejected.length)).sum

theorem Exchange.isBare_of_response? {root : String} {c : Exchange} {a : Response}
    (h : c.response? root = some a) : c.ending.isBare = false := by
  rcases c.ending.reply_cases with ⟨s, -, hb, -⟩ | ⟨reason, ha, -⟩ | ⟨reason, ha, -⟩
  · exact hb
  · rw [response?, ha] at h
    cases h
  · rw [response?, ha] at h
    cases h

theorem Account.take {root : String} {cs : List Exchange} {r : Result} (h : Account root cs r)
    (c : Exchange) : Account root (cs ++ [c]) (r.take root c) := by
  obtain ⟨m, e⟩ := r.begin_eq c.batch
  unfold Result.take
  rw [e]
  cases hc : c.response? root with
  | none =>
    constructor
    · simp [h.analyzed]
    · cases hf : c.failure? <;> simp [h.failed, hf]
    · simp [h.findings, hc]
    · simp [h.rejectedCount, hc]
  | some a =>
    have hf : c.failure? = none := by simp [Exchange.failure?, Exchange.isBare_of_response? hc]
    obtain ⟨m', e'⟩ := Result.addAll_eq a.issues
      { r with analyzed := r.analyzed ++ c.batch.paths, byFile := m }
    simp only [e']
    constructor
    · simp [h.analyzed]
    · simp [h.failed, hf]
    · simp [Findings.ofSeverity_foldl_add, h.findings, hc]
    · simp [h.rejectedCount, hc]

theorem Account.foldl {root : String} {cs : List Exchange} {r : Result} (h : Account root cs r)
    (more : List Exchange) :
    Account root (cs ++ more) (more.foldl (fun r c => r.take root c) r) := by
  induction more generalizing cs r with
  | nil => rwa [List.append_nil]
  | cons c more ih =>
    rw [List.append_cons]
    exact ih (h.take c)

end PerfReview
