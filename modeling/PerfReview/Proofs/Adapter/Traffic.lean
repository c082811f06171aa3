import PerfReview.Adapter

/-!
# Several callers of one connection

Callers come to a connection with a batch and perhaps a token, one after the other or at once. A
caller looks at its token, waits for the lock, looks again, and then has its call made by a worker
of its own, for whose ending it waits in short waits with a look at the token between them. The lock
is the caller's, not the worker's: a caller that leaves gives it back, whatever its worker does. An
`Action` is one step of one of them, and the system takes them in any order.

`Adapter.invoke` is what happens when a caller is alone (`Traffic.reaches_invoke`).
-/

namespace PerfReview

/-- What a worker is at. -/
inductive Work where
  /-- It has not taken up its call yet. -/
  | idle
  /-- Its call was taken back before that. -/
  | dropped
  | running
  | ended (e : Ending)
  deriving DecidableEq, Repr

/-- What a worker is at when its call is taken back. -/
def Work.drop : Work → Work
  | idle => dropped
  | work => work

/-- A call being made for the caller `owner`. -/
structure Worker where
  owner : Nat
  request : Request
  work : Work
  deriving DecidableEq, Repr

/-- How far a caller has come. -/
inductive Phase where
  /-- It looks at its token for the first time. -/
  | arriving
  | queued
  /-- It holds the lock and looks at its token again. -/
  | admitted
  /-- It looks at its token, a worker being at work for it. -/
  | looking (worker : Nat)
  | waiting (worker : Nat)
  | returned (reply : Reply)
  deriving DecidableEq

namespace Phase

def worker? : Phase → Option Nat
  | looking w | waiting w => some w
  | _ => none

def isInside : Phase → Bool
  | admitted | looking _ | waiting _ => true
  | _ => false

theorem isInside_of_worker? {p : Phase} {w : Nat} (h : p.worker? = some w) : p.isInside = true := by
  cases p <;> first | rfl | cases h

end Phase

structure Caller where
  batch : Batch
  audit : Option Audit := none
  /-- The number of its token, if it has one. -/
  token : Option Nat := none
  phase : Phase := .arriving
  deriving DecidableEq

namespace Caller

def request (c : Caller) : Request := Request.ofBatch c.batch c.audit

end Caller

/-- A connection with all that goes on at it. -/
structure Traffic where
  callers : List Caller := []
  workers : List Worker := []
  /-- The tokens that have fired. -/
  fired : List Nat := []
  /-- The caller that holds the lock. -/
  holder : Option Nat := none
  deriving DecidableEq

/-- One step of a caller, of a worker, or of what is around them. -/
inductive Action where
  | arrive (b : Batch) (audit : Option Audit) (token : Option Nat)
  /-- A caller goes on as its phase has it; one that waits in vain looks at its token. -/
  | go (caller : Nat)
  | enter (worker : Nat)
  | finish (worker : Nat) (e : Ending)
  | fire (token : Nat)

namespace Traffic

def calledOff (s : Traffic) (c : Caller) : Bool := c.token.any (· ∈ s.fired)

def setPhase (s : Traffic) (i : Nat) (phase : Phase) : Traffic :=
  { s with callers := s.callers.modify i fun c => { c with phase } }

def setWork (s : Traffic) (w : Nat) (work : Work) : Traffic :=
  { s with workers := s.workers.modify w fun k => { k with work } }

def leave (s : Traffic) (i : Nat) (reply : Reply) : Traffic :=
  { s.setPhase i (.returned reply) with holder := none }

/-- Takes a call back unless its worker has taken it up. -/
def drop (s : Traffic) (w : Nat) : Traffic :=
  { s with workers := s.workers.modify w fun k => { k with work := k.work.drop } }

/-- The ending that the caller of a worker is given. -/
def ending? (s : Traffic) (w : Nat) : Option Ending :=
  match s.workers[w]? with
  | some ⟨_, _, .ended e⟩ => if e.isOpen then none else some e
  | _ => none

/-- What is said of a call that is called off before it is made. -/
def refusal : Reply := .cancelled TokenFault.cancelled.message

/-- The next step of a caller; there is none while the lock is taken and after the reply. -/
def go (s : Traffic) (i : Nat) (c : Caller) : Option Traffic :=
  match c.phase with
  | .arriving =>
    if s.calledOff c then some (s.setPhase i (.returned refusal)) else some (s.setPhase i .queued)
  | .queued =>
    if s.holder.isSome then none else some { s.setPhase i .admitted with holder := some i }
  | .admitted =>
    if s.calledOff c then some (s.leave i refusal)
    else
      some { s.setPhase i (.looking s.workers.length) with
        workers := s.workers ++ [⟨i, c.request, .idle⟩] }
  | .looking w =>
    if s.calledOff c then some ((s.drop w).leave i (.cancelled Reply.abandonedReason))
    else some (s.setPhase i (.waiting w))
  | .waiting w =>
    match s.ending? w with
    | some e => some (s.leave i (.ofEnding e))
    | none => some (s.setPhase i (.looking w))
  | .returned _ => none

def step (s : Traffic) : Action → Option Traffic
  | .arrive batch audit token => some { s with callers := s.callers ++ [{ batch, audit, token }] }
  | .go i => s.callers[i]?.bind (s.go i)
  | .enter w =>
    if (s.workers[w]?.map (·.work)) = some .idle then some (s.setWork w .running) else none
  | .finish w e =>
    if (s.workers[w]?.map (·.work)) = some .running ∧ e ≠ .silent then some (s.setWork w (.ended e))
    else none
  | .fire k => some { s with fired := k :: s.fired }

/-- Takes steps one after the other, if all of them can be taken. -/
def run : List Action → Traffic → Option Traffic
  | [], s => some s
  | a :: as, s => (s.step a).bind (run as)

/-- Some steps lead from one state to another. -/
def Reaches (s s' : Traffic) : Prop := ∃ as, run as s = some s'

/-- A state that a new connection can come to. -/
def Reachable (s : Traffic) : Prop := Reaches {} s

theorem getElem?_push_eq_some {α : Type} {xs : List α} {x y : α} {n : Nat} :
    (xs ++ [x])[n]? = some y ↔ xs[n]? = some y ∨ (n = xs.length ∧ x = y) := by
  rcases Nat.lt_trichotomy n xs.length with hn | rfl | hn
  · rw [List.getElem?_append_left hn]
    exact ⟨.inl, fun h => h.resolve_right fun h => Nat.ne_of_lt hn h.1⟩
  · simp
  · have hlong : (xs ++ [x]).length ≤ n := by
      rw [List.length_append]
      exact hn
    rw [List.getElem?_eq_none hlong, List.getElem?_eq_none (Nat.le_of_lt hn)]
    simp [Nat.ne_of_gt hn]

theorem Reaches.refl (s : Traffic) : s.Reaches s := ⟨[], rfl⟩

theorem Reaches.step {s s' s'' : Traffic} {a : Action} (h : s.step a = some s')
    (h' : s'.Reaches s'') : s.Reaches s'' := by
  obtain ⟨as, e⟩ := h'
  exact ⟨a :: as, by rw [run, h, Option.bind_some, e]⟩

theorem Reaches.preserves {P : Traffic → Prop}
    (hstep : ∀ {s s' : Traffic} {a : Action}, P s → s.step a = some s' → P s') {s s' : Traffic}
    (e : s.Reaches s') (h : P s) : P s' := by
  obtain ⟨as, e⟩ := e
  induction as generalizing s with
  | nil =>
    cases e
    exact h
  | cons a as ih =>
    obtain ⟨s₁, hs₁, e⟩ := Option.bind_eq_some_iff.1 e
    exact ih (hstep h hs₁) e

theorem Reaches.trans {s s' s'' : Traffic} (h : s.Reaches s') (h' : s'.Reaches s'') :
    s.Reaches s'' := by
  obtain ⟨as, e⟩ := h
  induction as generalizing s with
  | nil => cases e; exact h'
  | cons a as ih =>
    obtain ⟨s₁, hs₁, e⟩ := Option.bind_eq_some_iff.1 e
    exact .step hs₁ (ih e)

/-! ## What a step can be -/

/-- The steps of a caller, each with what it takes. -/
inductive Goes (s : Traffic) (i : Nat) (c : Caller) : Traffic → Prop where
  | refused : c.phase = .arriving → s.calledOff c = true →
      Goes s i c (s.setPhase i (.returned refusal))
  | queued : c.phase = .arriving → Goes s i c (s.setPhase i .queued)
  | admitted : c.phase = .queued → s.holder = none →
      Goes s i c { s.setPhase i .admitted with holder := some i }
  | turned : c.phase = .admitted → s.calledOff c = true → Goes s i c (s.leave i refusal)
  | started : c.phase = .admitted → s.calledOff c = false →
      Goes s i c { s.setPhase i (.looking s.workers.length) with
        workers := s.workers ++ [⟨i, c.request, .idle⟩] }
  | abandoned (w : Nat) : c.phase = .looking w → s.calledOff c = true →
      Goes s i c ((s.drop w).leave i (.cancelled Reply.abandonedReason))
  | waits (w : Nat) : c.phase = .looking w → Goes s i c (s.setPhase i (.waiting w))
  | delivered (w : Nat) (e : Ending) : c.phase = .waiting w → s.ending? w = some e →
      Goes s i c (s.leave i (.ofEnding e))
  | looks (w : Nat) : c.phase = .waiting w → Goes s i c (s.setPhase i (.looking w))

section
variable {s s' : Traffic} {i w : Nat} {c : Caller}

theorem goes_of_go (e : s.go i c = some s') : Goes s i c s' := by
  unfold go at e
  cases hphase : c.phase with
  | arriving =>
    rw [hphase] at e
    dsimp only at e
    split at e <;> cases e
    · exact .refused hphase ‹_›
    · exact .queued hphase
  | queued =>
    rw [hphase] at e
    dsimp only at e
    split at e <;> cases e
    rename_i hfree
    exact .admitted hphase (by simpa using hfree)
  | admitted =>
    rw [hphase] at e
    dsimp only at e
    split at e <;> cases e
    · exact .turned hphase ‹_›
    · rename_i hoff
      exact .started hphase (by simpa using hoff)
  | looking w =>
    rw [hphase] at e
    dsimp only at e
    split at e <;> cases e
    · exact .abandoned w hphase ‹_›
    · exact .waits w hphase
  | waiting w =>
    rw [hphase] at e
    dsimp only at e
    split at e <;> cases e
    · exact .delivered w _ hphase ‹_›
    · exact .looks w hphase
  | returned r => rw [hphase] at e; cases e

theorem eq_of_enter (e : s.step (.enter w) = some s') :
    s.workers[w]?.map (·.work) = some .idle ∧ s' = s.setWork w .running := by
  rw [step] at e
  split at e <;> cases e
  exact ⟨‹_›, rfl⟩

theorem eq_of_finish {ending : Ending} (e : s.step (.finish w ending) = some s') :
    s.workers[w]?.map (·.work) = some .running ∧ s' = s.setWork w (.ended ending) := by
  rw [step] at e
  split at e <;> cases e
  rename_i hwork
  exact ⟨hwork.1, rfl⟩

end

/-! ## A caller alone -/

theorem modify_concat {α : Type} (l : List α) (a : α) (f : α → α) :
    (l ++ [a]).modify l.length f = l ++ [f a] := by
  induction l with
  | nil => rfl
  | cons b l ih => simpa using ih

variable {s : Traffic} {b : Batch} {audit : Option Audit} {token : Option Nat}

/-- The state with one more caller, which holds the lock, and the worker of its call. -/
def joined (s : Traffic) (c : Caller) (work : Work) : Traffic where
  callers := s.callers ++ [c]
  workers := s.workers ++ [⟨s.callers.length, c.request, work⟩]
  fired := s.fired
  holder := some s.callers.length

/-- The state when that caller has gone with its reply. -/
def parted (s : Traffic) (c : Caller) (work : Work) (reply : Reply) : Traffic :=
  { s.joined { c with phase := .returned reply } work with holder := none }

/-- While the lock is free, a caller whose token has not fired has its call made. -/
theorem reaches_joined (hfree : s.holder = none) (htoken : token.any (· ∈ s.fired) = false) :
    s.Reaches (s.joined ⟨b, audit, token, .looking s.workers.length⟩ .running) := by
  refine ⟨[.arrive b audit token, .go s.callers.length, .go s.callers.length, .go s.callers.length,
    .enter s.workers.length], ?_⟩
  simp [run, step, go, setPhase, setWork, calledOff, htoken, hfree, modify_concat, joined,
    Caller.request]

section
variable {c : Caller} {work : Work} {e : Ending} {t : Nat}

theorem step_go_joined :
    (s.joined c work).step (.go s.callers.length) = (s.joined c work).go s.callers.length c := by
  simp [step, joined]

theorem setPhase_joined (phase : Phase) :
    (s.joined c work).setPhase s.callers.length phase = s.joined { c with phase } work := by
  simp [setPhase, joined, modify_concat, Caller.request]

theorem drop_joined : (s.joined c work).drop s.workers.length = s.joined c work.drop := by
  simp [drop, joined, modify_concat]

theorem leave_joined (r : Reply) :
    (s.joined c work).leave s.callers.length r = s.parted c work r := by
  rw [leave, setPhase_joined]
  rfl

theorem ending?_joined_running : (s.joined c .running).ending? s.workers.length = none := by
  simp [ending?, joined]

theorem ending?_joined_ended :
    (s.joined c (.ended e)).ending? s.workers.length = if e.isOpen then none else some e := by
  simp [ending?, joined]

theorem step_finish_joined (he : e ≠ .silent) :
    (s.joined c .running).step (.finish s.workers.length e) = some (s.joined c (.ended e)) := by
  simp [step, joined, he, setWork, modify_concat]

theorem step_fire_joined :
    (s.joined c work).step (.fire t) = some ({ s with fired := t :: s.fired }.joined c work) := rfl

theorem go_looking_joined (hphase : c.phase = .looking s.workers.length)
    (hoff : s.calledOff c = false) : (s.joined c work).step (.go s.callers.length) =
      some (s.joined { c with phase := .waiting s.workers.length } work) := by
  have hoff' : (s.joined c work).calledOff c = false := hoff
  rw [step_go_joined, go, hphase]
  dsimp only
  rw [if_neg (by simp [hoff']), setPhase_joined]

theorem go_fired_joined (hphase : c.phase = .looking s.workers.length)
    (hoff : s.calledOff c = true) : (s.joined c work).step (.go s.callers.length) =
      some (s.parted c work.drop (.cancelled Reply.abandonedReason)) := by
  have hoff' : (s.joined c work).calledOff c = true := hoff
  rw [step_go_joined, go, hphase]
  dsimp only
  rw [if_pos hoff', drop_joined, leave_joined]

theorem go_vain_joined (hphase : c.phase = .waiting s.workers.length)
    (he : (s.joined c work).ending? s.workers.length = none) :
    (s.joined c work).step (.go s.callers.length) =
      some (s.joined { c with phase := .looking s.workers.length } work) := by
  rw [step_go_joined, go, hphase]
  dsimp only
  rw [he]
  exact congrArg some (setPhase_joined _)

theorem go_ended_joined (hphase : c.phase = .waiting s.workers.length) (he : e.isOpen = false) :
    (s.joined c (.ended e)).step (.go s.callers.length) =
      some (s.parted c (.ended e) (.ofEnding e)) := by
  rw [step_go_joined, go, hphase]
  dsimp only
  rw [ending?_joined_ended, he, ← leave_joined]
  rfl

/-- A caller waits and its call ends; its token may fire before it is given the ending. -/
theorem reaches_delivered (hphase : c.phase = .looking s.workers.length)
    (hoff : s.calledOff c = false) (he : e.isOpen = false) (fires : Bool) :
    (s.joined c .running).Reaches
      ((if fires then { s with fired := t :: s.fired } else s).parted c (.ended e)
        (.ofEnding e)) := by
  have hsilent : e ≠ .silent := by rintro rfl; cases he
  refine .step (go_looking_joined hphase hoff) (.step (step_finish_joined hsilent) ?_)
  cases fires with
  | false => exact .step (go_ended_joined rfl he) (.refl _)
  | true => exact .step step_fire_joined (.step (go_ended_joined rfl he) (.refl _))

/-- A caller waits in vain until its token fires, and leaves its call alone. -/
theorem reaches_abandoned (hphase : c.phase = .looking s.workers.length)
    (hoff : s.calledOff c = false) (htoken : c.token = some t) (he : e.isOpen = true) :
    (s.joined c .running).Reaches ({ s with fired := t :: s.fired }.parted c
      (if e = Ending.silent then .running else .ended e) (.ofEnding e)) := by
  have hfired : ({ s with fired := t :: s.fired } : Traffic).calledOff c = true := by
    simp [calledOff, htoken]
  refine .step (go_looking_joined hphase hoff) ?_
  cases e with
  | silent =>
    refine .step (step_fire_joined (t := t)) ?_
    refine .step (go_vain_joined rfl ending?_joined_running) ?_
    exact .step (go_fired_joined rfl hfired) (.refl _)
  | timedOut =>
    have htimedOut : Ending.timedOut ≠ .silent := nofun
    refine .step (step_finish_joined htimedOut) (.step (step_fire_joined (t := t)) ?_)
    refine .step (go_vain_joined rfl ending?_joined_ended) ?_
    exact .step (go_fired_joined rfl hfired) (.refl _)
  | text => cases he
  | noText => cases he
  | refused => cases he
  | failed => cases he

end

/-! ## Runs of one caller after the other -/

/-- The connection is free, and stands as a run leaves it that has the given token. -/
structure Matches {σ : Type} (s : Traffic) (t : Nat) (a : Adapter σ) (token : Token) : Prop where
  free : s.holder = none
  requests : s.workers.map (·.request) = a.requests
  pending : a.pending = true ↔ (s.workers.getLast?.map (·.work)) = some .running
  fired : token.fired = true ↔ t ∈ s.fired

theorem Matches.parted {σ : Type} {t : Nat} {a : Adapter σ} {token token' : Token}
    (h : Matches s t a token) {fired : List Nat} (hfired : token'.fired = true ↔ t ∈ fired)
    (c : Caller) {work : Work} {pending : Bool} (hpending : pending = true ↔ work = .running)
    (r : Reply) (state : σ) : Matches ({ s with fired }.parted c work r) t
      { state, requests := a.requests ++ [c.request], pending } token' := by
  refine ⟨rfl, ?_, ?_, hfired⟩
  · simp [Traffic.parted, joined, h.requests, Caller.request]
  · simp [Traffic.parted, joined, hpending]

theorem invoke_eq {σ : Type} (o : Oracle σ) (audit : Option Audit) (log : List Log.Entry)
    (b : Batch) {a : Adapter σ} {token : Token} (h : token.fired = false) {e : Ending} {state : σ}
    (hcall : o.call a.state (Request.ofBatch b audit) = (e, state)) :
    a.invoke o audit log b token =
      ⟨.ofEnding e, ⟨state, a.requests ++ [Request.ofBatch b audit], e = .silent⟩,
        if e.isOpen || o.interrupts a.state (Request.ofBatch b audit) then token.cancel else token,
        Adapter.callLog log b (e.isOpen || o.interrupts a.state (Request.ofBatch b audit)) e⟩ := by
  have hsend : a.send o (Request.ofBatch b audit) =
      (e, ⟨state, a.requests ++ [Request.ofBatch b audit], e = .silent⟩) := by
    rw [Adapter.send, hcall]
  rw [Adapter.invoke, if_neg (by simp [h])]
  simp only [hsend, Adapter.fires, hcall]

/-- Asking the model about a batch is what a caller does that is alone at the connection. -/
theorem reaches_invoke {σ : Type} (o : Oracle σ) (audit : Option Audit) (log : List Log.Entry)
    (b : Batch) {t : Nat} {a : Adapter σ} {token : Token} (h : Matches s t a token) :
    ∃ s', s.Reaches s' ∧
      Matches s' t (a.invoke o audit log b token).adapter (a.invoke o audit log b token).token ∧
      s'.callers =
        s.callers ++ [⟨b, audit, some t, .returned (a.invoke o audit log b token).reply⟩] := by
  cases hfired : token.fired with
  | true =>
    -- refused at the door: no request is made
    have ht : t ∈ s.fired := h.fired.1 hfired
    rw [Adapter.invoke, if_pos hfired]
    refine ⟨{ s with callers := s.callers ++ [⟨b, audit, some t, .returned refusal⟩] }, ?_,
      ⟨h.free, h.requests, h.pending, h.fired⟩, rfl⟩
    refine ⟨[.arrive b audit (some t), .go s.callers.length], ?_⟩
    simp [run, step, go, setPhase, calledOff, ht, modify_concat]
  | false =>
    have ht : t ∉ s.fired := fun ht => by rw [h.fired.2 ht] at hfired; cases hfired
    let c : Caller := ⟨b, audit, some t, .looking s.workers.length⟩
    have hoff : s.calledOff c = false := by simp [calledOff, c, ht]
    have hstart : s.Reaches (s.joined c .running) := reaches_joined h.free hoff
    have hafter : token.cancel.fired = true ↔ t ∈ t :: s.fired := by simp [Token.cancel]
    cases hcall : o.call a.state (Request.ofBatch b audit) with
    | mk e state =>
      rw [invoke_eq o audit log b hfired hcall]
      -- a call that stays open is left by firing its token; any other gives its answer
      cases he : e.isOpen with
      | true =>
        refine ⟨_, hstart.trans (reaches_abandoned rfl hoff rfl he), ?_, rfl⟩
        refine h.parted hafter c ?_ _ state
        by_cases hsilent : e = .silent <;> simp [hsilent]
      | false =>
        have hpending : decide (e = Ending.silent) = true ↔ Work.ended e = .running := by
          simpa using show e ≠ .silent by rintro rfl; cases he
        cases o.interrupts a.state (Request.ofBatch b audit) with
        | true =>
          refine ⟨_, hstart.trans (reaches_delivered (t := t) rfl hoff he true), ?_, rfl⟩
          exact h.parted hafter c hpending _ state
        | false =>
          refine ⟨_, hstart.trans (reaches_delivered (t := t) rfl hoff he false), ?_, rfl⟩
          exact h.parted h.fired c hpending _ state

end Traffic

end PerfReview
