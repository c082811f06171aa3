import PerfReview.Proofs.Adapter.Flight

/-!
# Histories of a connection

The history of a connection is what its steps meant for calls: a call was given to a new worker, the
worker took it up, the caller left with what it gave, or left it alone. `event?` sees this in the
phases of a caller before and after its step. `Happened` reads the same off a state: a step makes
happen what it means and nothing else (`tells_step`), and nothing happens twice, so a history holds
just what has happened (`ledger_of_run`).
-/

namespace PerfReview

def Work.hasBegun : Work → Bool
  | running | ended _ => true
  | _ => false

/-- What a step means for a call. -/
inductive Event where
  /-- The caller has its call made by a new worker. -/
  | started (caller worker : Nat)
  /-- The worker takes up the call. -/
  | entered (worker : Nat)
  /-- The caller leaves with what the call gave. -/
  | delivered (caller worker : Nat) (reply : Reply)
  /-- The caller leaves the call alone. -/
  | abandoned (caller worker : Nat)
  deriving DecidableEq

namespace Event

/-- What a caller's step means, by its phases before and after it. -/
def ofPhases? (i : Nat) : Phase → Phase → Option Event
  | .admitted, .looking w => some (started i w)
  | .waiting w, .returned reply => some (delivered i w reply)
  | .looking w, .returned _ => some (abandoned i w)
  | _, _ => none

def started? : Event → Option Nat
  | started _ w => some w
  | _ => none

/-- The worker whose call gave a caller its reply. -/
def delivered? : Event → Option Nat
  | delivered _ w _ => some w
  | _ => none

end Event

namespace Traffic

/-- What a step between two states means for a call. -/
def event? (s s' : Traffic) : Action → Option Event
  | .go i => s.callers[i]?.bind fun c => s'.callers[i]?.bind fun c' =>
      Event.ofPhases? i c.phase c'.phase
  | .enter w => some (.entered w)
  | _ => none

/-- What the steps of a run meant for calls, in their order. -/
def events : List Action → Traffic → List Event
  | [], _ => []
  | a :: as, s =>
    match s.step a with
    | some s' => (s.event? s' a).toList ++ events as s'
    | none => []

variable {s s' : Traffic} {i w : Nat} {c : Caller} {v : Event}

/-! ## What has happened -/

/-- The call of a worker is made for a caller. -/
def Owns (s : Traffic) (i w : Nat) : Prop := ∃ k, s.workers[w]? = some k ∧ k.owner = i

def Began (s : Traffic) (w : Nat) : Prop := ∃ k, s.workers[w]? = some k ∧ k.work.hasBegun = true

def Left (s : Traffic) (i : Nat) (reply : Reply) : Prop :=
  ∃ c, s.callers[i]? = some c ∧ c.phase = .returned reply

/-- What has happened, as the state has it. -/
def Happened (s : Traffic) : Event → Prop
  | .started i w => s.Owns i w
  | .entered w => s.Began w
  | .delivered i w reply =>
    s.Owns i w ∧ s.Left i reply ∧ reply ≠ .cancelled Reply.abandonedReason
  | .abandoned i w => s.Owns i w ∧ s.Left i (.cancelled Reply.abandonedReason)

theorem left_of_setPhase (hc : s.callers[i]? = some c)
    (hopen : ∀ reply, c.phase ≠ .returned reply) {phase : Phase}
    (hcallers : s'.callers = (s.setPhase i phase).callers) {j : Nat} {reply : Reply} :
    s'.Left j reply ↔ s.Left j reply ∨ (j = i ∧ phase = .returned reply) := by
  unfold Left
  rw [hcallers, getElem?_setPhase hc]
  by_cases hij : i = j
  · subst hij
    simp [hc, hopen]
  · simp [hij, Ne.symm hij]

theorem owns_of_map {f : Nat → Worker → Worker}
    (hworkers : ∀ u, s'.workers[u]? = s.workers[u]?.map (f u))
    (hf : ∀ u k, (f u k).owner = k.owner) {j u : Nat} : s'.Owns j u ↔ s.Owns j u := by
  rw [Owns, Owns, hworkers]
  cases s.workers[u]? with
  | none => simp
  | some k => simp [hf]

theorem began_of_map {f : Nat → Worker → Worker}
    (hworkers : ∀ u, s'.workers[u]? = s.workers[u]?.map (f u))
    (hf : ∀ u k, s.workers[u]? = some k → (f u k).work.hasBegun = k.work.hasBegun) {u : Nat} :
    s'.Began u ↔ s.Began u := by
  rw [Began, Began, hworkers]
  cases hk : s.workers[u]? with
  | none => simp
  | some k => simp [hf u k hk]

theorem owns_drop {j u : Nat} : (s.drop w).Owns j u ↔ s.Owns j u :=
  owns_of_map (getElem?_drop s w) fun u k => by split <;> rfl

theorem began_drop {u : Nat} : (s.drop w).Began u ↔ s.Began u := by
  refine began_of_map (getElem?_drop s w) fun u k _ => ?_
  split
  · cases k.work <;> rfl
  · rfl

theorem owns_setWork {work : Work} {j u : Nat} : (s.setWork w work).Owns j u ↔ s.Owns j u :=
  owns_of_map (getElem?_setWork s w work) fun u k => by split <;> rfl

theorem owns_push {r : Request} {j u : Nat} :
    Owns { s with workers := s.workers ++ [⟨i, r, .idle⟩] } j u ↔
      s.Owns j u ∨ (j = i ∧ u = s.workers.length) := by
  unfold Owns
  constructor
  · rintro ⟨k, hk, rfl⟩
    rcases getElem?_push_eq_some.1 hk with hold | ⟨rfl, rfl⟩
    · exact .inl ⟨k, hold, rfl⟩
    · exact .inr ⟨rfl, rfl⟩
  · rintro (⟨k, hk, rfl⟩ | ⟨rfl, rfl⟩)
    · exact ⟨k, getElem?_push_eq_some.2 (.inl hk), rfl⟩
    · exact ⟨_, getElem?_push_eq_some.2 (.inr ⟨rfl, rfl⟩), rfl⟩

theorem began_push {r : Request} {u : Nat} :
    Began { s with workers := s.workers ++ [⟨i, r, .idle⟩] } u ↔ s.Began u := by
  unfold Began
  constructor
  · rintro ⟨k, hk, hbegun⟩
    rcases getElem?_push_eq_some.1 hk with hold | ⟨-, rfl⟩
    · exact ⟨k, hold, hbegun⟩
    · cases hbegun
  · rintro ⟨k, hk, hbegun⟩
    exact ⟨k, getElem?_push_eq_some.2 (.inl hk), hbegun⟩

/-- How a call is over for a caller that leaves with a reply. -/
def closing (i w : Nat) (reply : Reply) : Event :=
  if reply = .cancelled Reply.abandonedReason then .abandoned i w else .delivered i w reply

/-- Where one caller at most leaves, the calls that were made for it are over. -/
theorem happened_of_left {phase : Phase} (howns : ∀ j u, s'.Owns j u ↔ s.Owns j u)
    (hbegan : ∀ u, s'.Began u ↔ s.Began u)
    (hleft : ∀ j r, s'.Left j r ↔ s.Left j r ∨ (j = i ∧ phase = .returned r)) (v : Event) :
    s'.Happened v ↔
      s.Happened v ∨ ∃ r w, phase = .returned r ∧ s.Owns i w ∧ v = closing i w r := by
  have hclosing : ∀ w r, (closing i w r = .abandoned i w ∧ r = .cancelled Reply.abandonedReason) ∨
      (closing i w r = .delivered i w r ∧ r ≠ .cancelled Reply.abandonedReason) := by
    intro w r
    by_cases h : r = .cancelled Reply.abandonedReason <;> simp [closing, h]
  cases v with
  | started j u => grind [Happened]
  | entered u => grind [Happened]
  | delivered j u r => grind [Happened]
  | abandoned j u => grind [Happened]

theorem Sound.owns_iff (h : Sound s) (hc : s.callers[i]? = some c)
    (hworker : c.phase.worker? = some w) {u : Nat} : s.Owns i u ↔ u = w := by
  constructor
  · rintro ⟨k, hk, howner⟩
    exact (h.eq_of_owner hc hworker hk howner).1
  · rintro rfl
    exact h.own i c u hc hworker

theorem Sound.not_owns (h : Sound s) (hc : s.callers[i]? = some c)
    (hearly : c.phase.isEarly = true) {u : Nat} : ¬ s.Owns i u :=
  fun ⟨_, hk, howner⟩ => h.owner_ne hc hearly hk howner

theorem event?_go (hc : s.callers[i]? = some c) (phase : Phase)
    (hcallers : s'.callers = (s.setPhase i phase).callers) :
    s.event? s' (.go i) = Event.ofPhases? i c.phase phase := by
  rw [event?, hcallers, getElem?_setPhase hc, if_pos rfl, hc]
  rfl

/-- A step makes happen what it means, which has not happened yet, and nothing else. -/
def Tells (s s' : Traffic) (a : Action) : Prop :=
  ∀ v, (s'.Happened v ↔ s.Happened v ∨ s.event? s' a = some v) ∧
    (s.event? s' a = some v → ¬ s.Happened v)

theorem not_left (hc : s.callers[i]? = some c) (hopen : ∀ reply, c.phase ≠ .returned reply)
    (reply : Reply) : ¬ s.Left i reply := by
  rintro ⟨d, hd, hreply⟩
  cases hc.symm.trans hd
  exact hopen reply hreply

/-- While the workers stay as they are to their callers, what happens is that a caller leaves. -/
theorem tells_go (hc : s.callers[i]? = some c) (hopen : ∀ reply, c.phase ≠ .returned reply)
    (phase : Phase) (hcallers : s'.callers = (s.setPhase i phase).callers)
    (howns : ∀ j u, s'.Owns j u ↔ s.Owns j u) (hbegan : ∀ u, s'.Began u ↔ s.Began u)
    (hmeans : ∀ v, (∃ r w, phase = .returned r ∧ s.Owns i w ∧ v = closing i w r) ↔
      Event.ofPhases? i c.phase phase = some v) : s.Tells s' (.go i) := by
  intro v
  rw [event?_go hc phase hcallers, ← hmeans]
  refine ⟨happened_of_left howns hbegan (fun _ _ => left_of_setPhase hc hopen hcallers) v, ?_⟩
  rintro ⟨r, w, -, -, rfl⟩ h
  rw [closing] at h
  split at h
  · exact not_left hc hopen _ h.2
  · exact not_left hc hopen _ h.2.1

theorem tells_phase (hc : s.callers[i]? = some c) (hopen : ∀ reply, c.phase ≠ .returned reply)
    (phase : Phase) (hcallers : s'.callers = (s.setPhase i phase).callers)
    (hworkers : s'.workers = s.workers)
    (hmeans : ∀ v, (∃ r w, phase = .returned r ∧ s.Owns i w ∧ v = closing i w r) ↔
      Event.ofPhases? i c.phase phase = some v) : s.Tells s' (.go i) :=
  tells_go hc hopen phase hcallers (fun _ _ => by rw [Owns, Owns, hworkers])
    (fun _ => by rw [Began, Began, hworkers]) hmeans

theorem tells_start (hc : s.callers[i]? = some c) (hphase : c.phase = .admitted)
    (hcallers : s'.callers = (s.setPhase i (.looking s.workers.length)).callers)
    (hworkers : s'.workers = s.workers ++ [⟨i, c.request, .idle⟩]) : s.Tells s' (.go i) := by
  have hopen : ∀ reply, c.phase ≠ .returned reply := by simp [hphase]
  have hleft : ∀ j r, s'.Left j r ↔ s.Left j r := by
    intro j r
    rw [left_of_setPhase hc hopen hcallers]
    simp
  have howns : ∀ j u, s'.Owns j u ↔ s.Owns j u ∨ (j = i ∧ u = s.workers.length) := by
    intro j u
    rw [Owns, hworkers]
    exact owns_push
  have hbegan : ∀ u, s'.Began u ↔ s.Began u := by
    intro u
    rw [Began, hworkers]
    exact began_push
  have hnew : ¬ s.Owns i s.workers.length := by simp [Owns]
  have hnone := not_left hc hopen
  intro v
  rw [event?_go hc _ hcallers, hphase]
  cases v with
  | started j u => grind [Happened, Event.ofPhases?]
  | entered u => grind [Happened, Event.ofPhases?]
  | delivered j u r => grind [Happened, Event.ofPhases?]
  | abandoned j u => grind [Happened, Event.ofPhases?]

theorem Goes.tells (h : Goes s i c s') (hs : Sound s) (hc : s.callers[i]? = some c) :
    s.Tells s' (.go i) := by
  have hearly : c.phase.isEarly = true → ∀ u, ¬ s.Owns i u := fun h _ => hs.not_owns hc h
  have hmine : ∀ {w : Nat}, c.phase.worker? = some w → ∀ u, s.Owns i u ↔ u = w :=
    fun h _ => hs.owns_iff hc h
  cases h with
  | refused hphase hoff =>
    refine tells_phase hc (by simp [hphase]) (.returned refusal) rfl rfl fun v => ?_
    simp [hphase, Event.ofPhases?, hearly (by rw [hphase]; rfl)]
  | queued hphase =>
    refine tells_phase hc (by simp [hphase]) .queued rfl rfl fun v => ?_
    simp [hphase, Event.ofPhases?]
  | admitted hphase hfree =>
    refine tells_phase hc (by simp [hphase]) .admitted rfl rfl fun v => ?_
    simp [hphase, Event.ofPhases?]
  | turned hphase hoff =>
    refine tells_phase hc (by simp [hphase]) (.returned refusal) rfl rfl fun v => ?_
    simp [hphase, Event.ofPhases?, hearly (by rw [hphase]; rfl)]
  | started hphase hoff => exact tells_start hc hphase rfl rfl
  | abandoned w hphase hoff =>
    refine tells_go hc (by simp [hphase]) (.returned (.cancelled Reply.abandonedReason)) rfl
      (fun _ _ => owns_drop) (fun _ => began_drop) fun v => ?_
    simp [hphase, Event.ofPhases?, hmine (by rw [hphase]; rfl), closing, eq_comm]
  | waits w hphase =>
    refine tells_phase hc (by simp [hphase]) (.waiting w) rfl rfl fun v => ?_
    simp [hphase, Event.ofPhases?]
  | delivered w e hphase he =>
    have hne : Reply.ofEnding e ≠ .cancelled Reply.abandonedReason := by
      intro h
      obtain ⟨k, hk, -⟩ := (hmine (by rw [hphase]; rfl) w).2 rfl
      have hopen := (Reply.ofEnding_eq_cancelled_iff.1 h).1
      rw [(ending?_eq_some hk he).2] at hopen
      cases hopen
    refine tells_phase hc (by simp [hphase]) (.returned (.ofEnding e)) rfl rfl fun v => ?_
    simp [hphase, Event.ofPhases?, hmine (by rw [hphase]; rfl), closing, hne, eq_comm]
  | looks w hphase =>
    refine tells_phase hc (by simp [hphase]) (.looking w) rfl rfl fun v => ?_
    simp [hphase, Event.ofPhases?]

theorem tells_enter (hwork : s.workers[w]?.map (·.work) = some .idle) :
    s.Tells (s.setWork w .running) (.enter w) := by
  obtain ⟨k, hk, hidle⟩ := Option.map_eq_some_iff.1 hwork
  have hnew : ¬ s.Began w := by simp [Began, hk, hidle, Work.hasBegun]
  have hbegan : ∀ u, (s.setWork w .running).Began u ↔ s.Began u ∨ u = w := by
    intro u
    rw [Began, getElem?_setWork]
    by_cases hu : w = u
    · subst hu
      simp [hk, Work.hasBegun]
    · simp [Began, hu, Ne.symm hu]
  have howns : ∀ j u, (s.setWork w .running).Owns j u ↔ s.Owns j u := fun _ _ => owns_setWork
  have hleft : ∀ j r, (s.setWork w .running).Left j r ↔ s.Left j r := fun _ _ => Iff.rfl
  intro v
  cases v with
  | started j u => simp [Happened, event?, howns]
  | entered u =>
    simp only [Happened, event?, hbegan, Option.some.injEq, Event.entered.injEq]
    exact ⟨or_congr_right eq_comm, fun hu => hu ▸ hnew⟩
  | delivered j u r => simp [Happened, event?, howns, hleft]
  | abandoned j u => simp [Happened, event?, howns, hleft]

/-- A step that means nothing for calls, and by which nothing happens. -/
theorem tells_quiet {a : Action} (hmeans : s.event? s' a = none)
    (howns : ∀ j u, s'.Owns j u ↔ s.Owns j u) (hbegan : ∀ u, s'.Began u ↔ s.Began u)
    (hleft : ∀ j r, s'.Left j r ↔ s.Left j r) : s.Tells s' a := by
  intro v
  rw [hmeans]
  cases v <;> simp [Happened, howns, hbegan, hleft]

theorem tells_step (hs : Sound s) {a : Action} (e : s.step a = some s') : s.Tells s' a := by
  cases a with
  | arrive b audit token =>
    cases e
    refine tells_quiet rfl (fun _ _ => Iff.rfl) (fun _ => Iff.rfl) fun j r => ⟨?_, ?_⟩
    · rintro ⟨c, hc, hreply⟩
      rcases getElem?_push_eq_some.1 hc with hold | ⟨-, rfl⟩
      · exact ⟨c, hold, hreply⟩
      · cases hreply
    · rintro ⟨c, hc, hreply⟩
      exact ⟨c, getElem?_push_eq_some.2 (.inl hc), hreply⟩
  | go i =>
    obtain ⟨c, hc, e⟩ := Option.bind_eq_some_iff.1 e
    exact (goes_of_go e).tells hs hc
  | enter w =>
    obtain ⟨hwork, rfl⟩ := eq_of_enter e
    exact tells_enter hwork
  | finish w ending =>
    obtain ⟨hwork, rfl⟩ := eq_of_finish e
    obtain ⟨k, hk, hrunning⟩ := Option.map_eq_some_iff.1 hwork
    refine tells_quiet rfl (fun _ _ => owns_setWork) (fun u => ?_) fun _ _ => Iff.rfl
    refine began_of_map (getElem?_setWork s w _) fun u k' hk' => ?_
    split
    · rename_i hu
      subst hu
      cases hk.symm.trans hk'
      rw [hrunning]
      rfl
    · rfl
  | fire t =>
    cases e
    exact tells_quiet rfl (fun _ _ => Iff.rfl) (fun _ => Iff.rfl) fun _ _ => Iff.rfl

/-! ## Histories -/

/-- A history holds what has happened, each thing once. -/
structure Ledger (s : Traffic) (es : List Event) : Prop where
  nodup : es.Nodup
  mem_iff : ∀ v, v ∈ es ↔ s.Happened v

theorem Ledger.step {es : List Event} (h : Ledger s es) (hs : Sound s) {a : Action}
    (e : s.step a = some s') : Ledger s' (es ++ (s.event? s' a).toList) := by
  have htells := tells_step hs e
  constructor
  case nodup =>
    refine List.nodup_append.2 ⟨h.nodup, by cases s.event? s' a <;> simp, ?_⟩
    rintro v hv _ hmem rfl
    exact (htells v).2 (Option.mem_toList.1 hmem) ((h.mem_iff v).1 hv)
  case mem_iff =>
    intro v
    rw [List.mem_append, h.mem_iff, Option.mem_toList, (htells v).1]

theorem Ledger.run {es : List Event} (h : Ledger s es) (hs : Sound s) {as : List Action}
    (e : run as s = some s') : Ledger s' (es ++ events as s) := by
  induction as generalizing s es with
  | nil =>
    cases e
    rw [events, List.append_nil]
    exact h
  | cons a as ih =>
    obtain ⟨s₁, hs₁, e⟩ := Option.bind_eq_some_iff.1 e
    rw [events, hs₁, ← List.append_assoc]
    exact ih (h.step hs hs₁) (hs.step hs₁) e

theorem ledger_empty : Ledger {} [] := by
  refine ⟨List.nodup_nil, fun v => ?_⟩
  cases v <;> simp [Happened, Owns, Began]

theorem ledger_of_run {as : List Action} (h : run as {} = some s) : Ledger s (events as {}) :=
  ledger_empty.run sound_empty h

end Traffic

end PerfReview
