import PerfReview.Proofs.Adapter.Delivery

/-!
# How calls are settled

A caller waits for its call in a loop that looks at its token, waits for a while and looks again. The
loop counts nothing: it ends because a call that has ended is found so when the next wait is over. A
call that has failed by a time-out is not found so, since its failure is taken for the end of the
wait, and the caller waits on for ever.

`Settles` says what is to come of an `invoke` whose token does not fire: its request is made, it goes
on until it has left, it leaves soon after its call has ended, and it leaves with a text that is not
blank or with a failure. This is so exactly when the files of the batch can be asked for and the call
does not fail by a time-out (`settles_exactly`).
-/

namespace PerfReview

/-- What a caller is to leave with when its call has ended: with the text if it is one that is not
blank, otherwise with a failure, and with the oracle's own where it gave one. -/
structure Reply.Suits (reply : Reply) (e : Ending) : Prop where
  answer : ∀ text, reply = .answer text ↔
    e = .text text ∧ ∃ c ∈ text.toList, Text.isBlank c = false
  failed : (∀ text, reply ≠ .answer text) → ∃ reason, reply = .failed reason
  refused : ∀ reason, e = .refused reason → reply = .failed reason

theorem Reply.suits_ofEnding {e : Ending} (h : e.isOpen = false) : (Reply.ofEnding e).Suits e := by
  constructor
  case answer =>
    intro text
    rw [ofEnding_eq_answer_iff]
    simp [Text.isAllBlank]
  case failed =>
    intro hno
    cases e with
    | text s =>
      cases hs : Text.isAllBlank s with
      | true => exact ⟨emptyReason, by rw [ofEnding, if_pos hs]⟩
      | false => exact absurd (ofEnding_eq_answer_iff.2 ⟨rfl, hs⟩) (hno s)
    | noText => exact ⟨_, rfl⟩
    | refused reason => exact ⟨_, rfl⟩
    | failed reason => exact ⟨_, rfl⟩
    | timedOut => cases h
    | silent => cases h
  case refused =>
    rintro reason rfl
    rfl

namespace Phase

/-- The steps that a caller has taken when its call has not been made yet. -/
def taken : Phase → Nat
  | queued => 1
  | admitted => 2
  | _ => 0

/-- The steps that a caller takes before it leaves when its call has ended. -/
def left : Phase → Nat
  | looking _ => 2
  | waiting _ => 1
  | _ => 0

theorem taken_le (p : Phase) : p.taken ≤ 2 := by
  cases p <;> simp [taken]

theorem left_le (p : Phase) : p.left ≤ 2 := by
  cases p <;> simp [left]

end Phase

def Action.isOf (i : Nat) : Action → Bool
  | go j => j = i
  | _ => false

theorem Action.isOf_iff {i : Nat} {a : Action} : a.isOf i = true ↔ a = .go i := by
  cases a <;> simp [isOf]

namespace Traffic

/-- The state when a caller has come with a batch. -/
def arrived (s : Traffic) (b : Batch) (audit : Option Audit) (token : Option Nat) : Traffic :=
  { s with callers := s.callers ++ [{ batch := b, audit, token }] }

/-- A caller comes with a batch, whose files are read unless its token has fired. -/
def come (s : Traffic) (b : Batch) (audit : Option Audit) (token : Option Nat) :
    Except PathFault Traffic :=
  if token.any (· ∈ s.fired) then .ok (s.arrived b audit token)
  else (Request.read? b audit).map fun _ => s.arrived b audit token

def Ended (s : Traffic) (i : Nat) (e : Ending) : Prop :=
  ∃ (w : Nat) (k : Worker), s.workers[w]? = some k ∧ k.owner = i ∧ k.work = .ended e

/-- How a caller stands after the steps `as`, if its call ends as given should it end. -/
structure Settling (token : Option Nat) (e : Ending) (i : Nat) (as : List Action) (s : Traffic) :
    Prop where
  /-- Its call is made with its third step at the latest. -/
  starts : (∀ w, ¬ s.Owns i w) → as.countP (Action.isOf i) ≤ 2
  /-- It can go on until it has left, unless it waits for the lock that another caller holds. -/
  moves : (∃ reply, s.Left i reply) ∨ (∃ s', s.step (.go i) = some s') ∨
    (∃ c, s.callers[i]? = some c ∧ c.phase = .queued) ∧ ∃ j, j ≠ i ∧ s.holder = some j
  /-- When its call has ended it takes two more steps at most, whatever goes on besides. -/
  ends : s.Ended i e → ∀ as' s', run as' s = some s' → token.any (· ∈ s'.fired) = false →
    as'.countP (Action.isOf i) ≤ 2
  /-- It leaves when its call has ended, and with what suits that. -/
  replies : ∀ reply, s.Left i reply → s.Ended i e ∧ reply.Suits e

/-- An `invoke` of a batch with a token that does not fire comes to its end as it should, whatever
other callers do, if its call ends as given. -/
def Settles (s : Traffic) (b : Batch) (audit : Option Audit) (token : Option Nat) (e : Ending) :
    Prop :=
  ∃ s₀, s.come b audit token = .ok s₀ ∧ ∀ as s', run as s₀ = some s' →
    token.any (· ∈ s'.fired) = false →
      (∀ e', s'.Ended s.callers.length e' → e' = e) →
        Settling token e s.callers.length as s'

variable {s s' : Traffic} {i w : Nat} {c : Caller} {k : Worker} {phase : Phase} {e : Ending}
  {as : List Action}

/-! ## Callers that hold the lock, and callers that were refused -/

/-- A caller that holds the lock is inside, and a caller that was refused has been called off. -/
structure Kept (s : Traffic) : Prop where
  held : ∀ j, s.holder = some j → ∃ c, s.callers[j]? = some c ∧ c.phase.isInside = true
  refused : ∀ (i : Nat) (c : Caller), s.callers[i]? = some c → c.phase = .returned refusal →
    s.calledOff c = true

theorem Kept.ne_of_holder (h : Kept s) (hc : s.callers[i]? = some c)
    (houtside : c.phase.isInside = false) {j : Nat} (hj : s.holder = some j) : j ≠ i := by
  rintro rfl
  obtain ⟨d, hd, hinside⟩ := h.held j hj
  cases hc.symm.trans hd
  rw [houtside] at hinside
  cases hinside

theorem Kept.move (h : Kept s) (hc : s.callers[i]? = some c)
    (hcallers : s'.callers = (s.setPhase i phase).callers) (hfired : s.fired ⊆ s'.fired)
    (hheld : ∀ j, s'.holder = some j →
      (j = i ∧ phase.isInside = true) ∨ (j ≠ i ∧ s.holder = some j))
    (hrefused : phase = .returned refusal → s.calledOff c = true) : Kept s' := by
  have hget : ∀ j, s'.callers[j]? = if i = j then some { c with phase } else s.callers[j]? :=
    fun j => by rw [hcallers, getElem?_setPhase hc]
  constructor
  case held =>
    intro j hj
    rcases hheld j hj with ⟨rfl, hinside⟩ | ⟨hne, hj⟩
    · exact ⟨_, by rw [hget, if_pos rfl], hinside⟩
    · obtain ⟨d, hd, hinside⟩ := h.held j hj
      exact ⟨d, by rw [hget, if_neg (Ne.symm hne), hd], hinside⟩
  case refused =>
    intro j d hd hphase
    rw [hget] at hd
    split at hd
    · cases hd
      exact calledOff_mono hfired (hrefused hphase)
    · exact calledOff_mono hfired (h.refused j d hd hphase)

theorem isOpen_of_ending? (h : s.ending? w = some e) : e.isOpen = false := by
  cases hk : s.workers[w]? with
  | none => simp [ending?, hk] at h
  | some k => exact (ending?_eq_some hk h).2

theorem Kept.goes (h : Kept s) (hc : s.callers[i]? = some c) (g : Goes s i c s') : Kept s' := by
  have houtside : c.phase.isInside = false → ∀ {p : Phase} j, s.holder = some j →
      (j = i ∧ p.isInside = true) ∨ (j ≠ i ∧ s.holder = some j) :=
    fun hout _ j hj => .inr ⟨h.ne_of_holder hc hout hj, hj⟩
  have hstays : ∀ {p : Phase}, p.isInside = true → ∀ j, s.holder = some j →
      (j = i ∧ p.isInside = true) ∨ (j ≠ i ∧ s.holder = some j) := by
    intro p hp j hj
    by_cases hji : j = i
    · exact .inl ⟨hji, hp⟩
    · exact .inr ⟨hji, hj⟩
  cases g with
  | refused hphase hoff =>
    exact h.move hc rfl (List.Subset.refl _) (houtside (by rw [hphase]; rfl)) fun _ => hoff
  | queued hphase =>
    exact h.move hc rfl (List.Subset.refl _) (houtside (by rw [hphase]; rfl)) nofun
  | admitted hphase hfree =>
    have hheld : ∀ j, some i = some j → (j = i ∧ Phase.admitted.isInside = true) ∨
        (j ≠ i ∧ s.holder = some j) := by
      rintro _ ⟨⟩
      exact .inl ⟨rfl, rfl⟩
    exact h.move hc rfl (List.Subset.refl _) hheld nofun
  | turned hphase hoff => exact h.move hc rfl (List.Subset.refl _) nofun fun _ => hoff
  | started hphase hoff =>
    have hinside : (Phase.looking s.workers.length).isInside = true := rfl
    exact h.move hc rfl (List.Subset.refl _) (hstays hinside) nofun
  | abandoned w hphase hoff => exact h.move hc rfl (List.Subset.refl _) nofun fun _ => hoff
  | waits w hphase => exact h.move hc rfl (List.Subset.refl _) (hstays rfl) nofun
  | delivered w e hphase he =>
    refine h.move hc rfl (List.Subset.refl _) nofun fun hreply => ?_
    have hopen := (Reply.ofEnding_eq_cancelled_iff.1 (Phase.returned.inj hreply)).1
    rw [isOpen_of_ending? he] at hopen
    cases hopen
  | looks w hphase => exact h.move hc rfl (List.Subset.refl _) (hstays rfl) nofun

theorem Kept.step (h : Kept s) {a : Action} (e : s.step a = some s') : Kept s' := by
  cases a with
  | arrive b audit token =>
    cases e
    refine ⟨fun j hj => ?_, fun j d hd hphase => ?_⟩
    · obtain ⟨d, hd, hinside⟩ := h.held j hj
      exact ⟨d, getElem?_push_eq_some.2 (.inl hd), hinside⟩
    · rcases getElem?_push_eq_some.1 hd with hold | ⟨-, rfl⟩
      · exact h.refused j d hold hphase
      · cases hphase
  | go j =>
    obtain ⟨d, hd, e⟩ := Option.bind_eq_some_iff.1 e
    exact h.goes hd (goes_of_go e)
  | enter w =>
    obtain ⟨-, rfl⟩ := eq_of_enter e
    exact ⟨h.held, h.refused⟩
  | finish w ending =>
    obtain ⟨-, rfl⟩ := eq_of_finish e
    exact ⟨h.held, h.refused⟩
  | fire t =>
    cases e
    exact ⟨h.held, fun j d hd hphase =>
      calledOff_mono (List.subset_cons_self _ _) (h.refused j d hd hphase)⟩

theorem kept_empty : Kept {} := ⟨nofun, nofun⟩

theorem Kept.reaches (h : Kept s) (e : s.Reaches s') : Kept s' :=
  e.preserves (fun h e => h.step e) h

/-! ## Runs of a caller whose token does not fire -/

theorem fired_of_run (e : run as s = some s') : s.fired ⊆ s'.fired :=
  Reaches.preserves (P := fun s₁ => s.fired ⊆ s₁.fired)
    (fun h e => List.Subset.trans h (step_fired e)) ⟨as, e⟩ (List.Subset.refl _)

theorem calledOff_of_run (e : run as s = some s') (h : s'.calledOff c = false) :
    s.calledOff c = false := by
  cases hoff : s.calledOff c with
  | false => rfl
  | true => rw [calledOff_mono (fired_of_run e) hoff] at h; cases h

/-- The callers are counted by the steps they take before their call is made. -/
theorem Goes.early (g : Goes s i c s') : ∃ phase, s'.callers = (s.setPhase i phase).callers ∧
    (phase.isEarly = true → c.phase.isEarly = true ∧ phase.taken = c.phase.taken + 1) := by
  cases g with
  | refused => exact ⟨_, rfl, nofun⟩
  | queued hphase => exact ⟨_, rfl, fun _ => by rw [hphase]; exact ⟨rfl, rfl⟩⟩
  | admitted hphase => exact ⟨.admitted, rfl, fun _ => by rw [hphase]; exact ⟨rfl, rfl⟩⟩
  | turned => exact ⟨.returned refusal, rfl, nofun⟩
  | started => exact ⟨.looking s.workers.length, rfl, nofun⟩
  | abandoned => exact ⟨.returned _, rfl, nofun⟩
  | waits => exact ⟨_, rfl, nofun⟩
  | delivered => exact ⟨.returned _, rfl, nofun⟩
  | looks => exact ⟨_, rfl, nofun⟩

/-- A caller keeps its batch and its token, and while its call has not been made its phase tells how
many steps it has taken. -/
theorem run_taken (h : run as s = some s') (hc : s.callers[i]? = some c) :
    ∃ phase, s'.callers[i]? = some { c with phase } ∧ (phase.isEarly = true →
      c.phase.isEarly = true ∧ phase.taken = c.phase.taken + as.countP (Action.isOf i)) := by
  induction as generalizing s c with
  | nil =>
    cases h
    exact ⟨c.phase, hc, fun hearly => ⟨hearly, rfl⟩⟩
  | cons a as ih =>
    obtain ⟨s₁, hs₁, hrun⟩ := Option.bind_eq_some_iff.1 h
    by_cases ha : a = .go i
    · subst ha
      obtain ⟨d, hd, e⟩ := Option.bind_eq_some_iff.1 hs₁
      cases hc.symm.trans hd
      obtain ⟨phase, hcallers, hearly⟩ := (goes_of_go e).early
      have hc₁ : s₁.callers[i]? = some { c with phase } := by
        rw [hcallers, getElem?_setPhase hc, if_pos rfl]
      obtain ⟨phase', hc', hearly'⟩ := ih hrun hc₁
      refine ⟨phase', hc', fun hp => ?_⟩
      obtain ⟨hp₁, htaken'⟩ := hearly' hp
      obtain ⟨hp₀, htaken⟩ := hearly hp₁
      rw [List.countP_cons_of_pos (Action.isOf_iff.2 rfl), htaken', htaken]
      exact ⟨hp₀, by omega⟩
    · obtain ⟨phase, hc', hearly⟩ := ih hrun (step_other hs₁ ha hc)
      refine ⟨phase, hc', fun hp => ?_⟩
      rw [List.countP_cons_of_neg (fun h => ha (Action.isOf_iff.1 h))]
      exact hearly hp

/-! ## Calls that have ended -/

theorem step_ended {a : Action} (h : s.step a = some s') (hk : s.workers[w]? = some k)
    (hwork : k.work = .ended e) : s'.workers[w]? = some k := by
  have hsame : ∀ {before : Work}, s.workers[w]?.map (·.work) = some before →
      before = .ended e := by
    intro before hbefore
    rw [hk, Option.map_some, hwork] at hbefore
    exact (Option.some.inj hbefore).symm
  cases a with
  | arrive b audit token => cases h; exact hk
  | go j =>
    obtain ⟨d, hd, h⟩ := Option.bind_eq_some_iff.1 h
    rcases (goes_of_go h).workers with ⟨u, hworkers⟩ | hworkers | hworkers
    · have hdrop : { k with work := k.work.drop } = k := by
        cases k
        cases hwork
        rfl
      rw [hworkers, getElem?_drop, hk, Option.map_some, hdrop, ite_self]
    · rw [hworkers, hk]
    · rw [hworkers]
      exact getElem?_push_eq_some.2 (.inl hk)
  | enter u =>
    obtain ⟨hidle, rfl⟩ := eq_of_enter h
    have hne : u ≠ w := by
      rintro rfl
      cases hsame hidle
    rw [getElem?_setWork, hk, Option.map_some, if_neg hne]
  | finish u ending =>
    obtain ⟨hrunning, rfl⟩ := eq_of_finish h
    have hne : u ≠ w := by
      rintro rfl
      cases hsame hrunning
    rw [getElem?_setWork, hk, Option.map_some, if_neg hne]
  | fire t => cases h; exact hk

theorem go_looking (hphase : c.phase = .looking w) (hoff : s.calledOff c = false) :
    s.go i c = some (s.setPhase i (.waiting w)) := by
  rw [go, hphase]
  dsimp only
  rw [if_neg (by simp [hoff])]

theorem go_waiting (hphase : c.phase = .waiting w) (he : s.ending? w = some e) :
    s.go i c = some (s.leave i (.ofEnding e)) := by
  rw [go, hphase]
  dsimp only
  rw [he]

/-- Each step of a caller whose call has ended brings it nearer to leaving. -/
theorem step_left_lt (hs : Sound s) (hc : s.callers[i]? = some c) (hk : s.workers[w]? = some k)
    (howner : k.owner = i) (hwork : k.work = .ended e) (he : e.isOpen = false)
    (hoff : s.calledOff c = false) (h : s.step (.go i) = some s') :
    ∃ phase, s'.callers[i]? = some { c with phase } ∧ c.phase.left = phase.left + 1 := by
  obtain ⟨d, hd, h⟩ := Option.bind_eq_some_iff.1 h
  cases hc.symm.trans hd
  subst howner
  obtain ⟨d, hd, hstanding⟩ := hs.standing w k hk
  cases hc.symm.trans hd
  cases hstanding with
  | awaited hw =>
    cases hphase : c.phase with
    | looking u =>
      rw [go_looking hphase hoff] at h
      cases h
      exact ⟨.waiting u, by rw [getElem?_setPhase hc, if_pos rfl], rfl⟩
    | waiting u =>
      rw [hphase] at hw
      cases hw
      have hending : s.ending? w = some e := by
        rw [ending?, hk]
        cases k
        cases hwork
        simp [he]
      rw [go_waiting hphase hending] at h
      cases h
      exact ⟨.returned (.ofEnding e), (getElem?_setPhase hc _ _).trans (if_pos rfl), rfl⟩
    | _ => rw [hphase] at hw; cases hw
  | delivered _ _ hphase =>
    rw [go, hphase] at h
    cases h
  | abandoned _ _ hoff' =>
    rw [hoff] at hoff'
    cases hoff'

/-- A caller whose call has ended takes no more steps than it has left. -/
theorem countP_le_left (hs : Sound s) (hc : s.callers[i]? = some c) (hk : s.workers[w]? = some k)
    (howner : k.owner = i) (hwork : k.work = .ended e) (he : e.isOpen = false)
    (h : run as s = some s') (hoff : s'.calledOff c = false) :
    as.countP (Action.isOf i) ≤ c.phase.left := by
  induction as generalizing s c with
  | nil => exact Nat.zero_le _
  | cons a as ih =>
    have hoff₀ : s.calledOff c = false := calledOff_of_run h hoff
    obtain ⟨s₁, hs₁, hrun⟩ := Option.bind_eq_some_iff.1 h
    by_cases ha : a = .go i
    · subst ha
      obtain ⟨phase, hc₁, hleft⟩ := step_left_lt hs hc hk howner hwork he hoff₀ hs₁
      have hrest := ih (hs.step hs₁) hc₁ (step_ended hs₁ hk hwork) hrun hoff
      rw [List.countP_cons_of_pos (Action.isOf_iff.2 rfl), hleft]
      exact Nat.succ_le_succ hrest
    · rw [List.countP_cons_of_neg (fun h => ha (Action.isOf_iff.1 h))]
      exact ih (hs.step hs₁) (step_other hs₁ ha hc) (step_ended hs₁ hk hwork) hrun hoff

/-! ## Callers that can go on -/

/-- A caller that has not left can go on, unless another one holds the lock that it waits for. -/
theorem Kept.moves (h : Kept s) (hc : s.callers[i]? = some c) :
    (∃ reply, s.Left i reply) ∨ (∃ s', s.step (.go i) = some s') ∨
      (∃ c, s.callers[i]? = some c ∧ c.phase = .queued) ∧ ∃ j, j ≠ i ∧ s.holder = some j := by
  have hgo : ∀ {s₁}, s.go i c = some s₁ → ∃ s', s.step (.go i) = some s' :=
    fun hg => ⟨_, by rw [Traffic.step, hc, Option.bind_some, hg]⟩
  cases hphase : c.phase with
  | arriving =>
    cases hoff : s.calledOff c with
    | true => exact .inr (.inl (hgo (by rw [go, hphase]; exact if_pos hoff)))
    | false => exact .inr (.inl (hgo (by rw [go, hphase]; exact if_neg (by simp [hoff]))))
  | queued =>
    cases hholder : s.holder with
    | none => exact .inr (.inl (hgo (by rw [go, hphase]; exact if_neg (by simp [hholder]))))
    | some j =>
      exact .inr (.inr ⟨⟨c, hc, hphase⟩, j, h.ne_of_holder hc (by rw [hphase]; rfl) hholder, rfl⟩)
  | admitted =>
    cases hoff : s.calledOff c with
    | true => exact .inr (.inl (hgo (by rw [go, hphase]; exact if_pos hoff)))
    | false => exact .inr (.inl (hgo (by rw [go, hphase]; exact if_neg (by simp [hoff]))))
  | looking w =>
    cases hoff : s.calledOff c with
    | true => exact .inr (.inl (hgo (by rw [go, hphase]; exact if_pos hoff)))
    | false => exact .inr (.inl (hgo (go_looking hphase hoff)))
  | waiting w =>
    cases he : s.ending? w with
    | some e => exact .inr (.inl (hgo (go_waiting hphase he)))
    | none => exact .inr (.inl (hgo (by rw [go, hphase]; dsimp only; rw [he])))
  | returned reply => exact .inl ⟨reply, c, hc, hphase⟩

/-! ## Settled calls -/

/-- A caller that has left and was not called off had its call made, and was given its ending. -/
theorem Kept.exists_ended (h : Kept s) (hs : Sound s) (hserved : Served s)
    (hc : s.callers[i]? = some c) (hoff : s.calledOff c = false) {reply : Reply}
    (hphase : c.phase = .returned reply) :
    ∃ e, s.Ended i e ∧ e.isOpen = false ∧ reply = .ofEnding e := by
  rcases hserved.answered i reply ⟨c, hc, hphase⟩ with rfl | ⟨w, k, hk, rfl⟩
  · rw [h.refused i c hc hphase] at hoff
    cases hoff
  obtain ⟨d, hd, hstanding⟩ := hs.standing w k hk
  cases hc.symm.trans hd
  cases hstanding with
  | awaited hw => rw [hphase] at hw; cases hw
  | delivered hwork he hreply =>
    exact ⟨_, ⟨w, k, hk, rfl, hwork⟩, he, Phase.returned.inj (hphase.symm.trans hreply)⟩
  | abandoned _ _ hoff' => rw [hoff] at hoff'; cases hoff'

/-- Without a call of its own a caller that was not called off has not come so far as to need one. -/
theorem Kept.isEarly_of_not_owns (h : Kept s) (hs : Sound s) (hserved : Served s)
    (hc : s.callers[i]? = some c) (hoff : s.calledOff c = false) (hnone : ∀ w, ¬ s.Owns i w) :
    c.phase.isEarly = true := by
  cases hphase : c.phase with
  | arriving => rfl
  | queued => rfl
  | admitted => rfl
  | looking w => exact absurd (hs.own i c w hc (by rw [hphase]; rfl)) (hnone w)
  | waiting w => exact absurd (hs.own i c w hc (by rw [hphase]; rfl)) (hnone w)
  | returned reply =>
    obtain ⟨e, ⟨w, k, hk, howner, -⟩, -⟩ := h.exists_ended hs hserved hc hoff hphase
    exact absurd ⟨k, hk, howner⟩ (hnone w)

variable {b : Batch} {audit : Option Audit} {token : Option Nat}

theorem come_eq (hon : token.any (· ∈ s.fired) = false) :
    s.come b audit token =
      match b.fault? with
      | some fault => .error fault
      | none => .ok (s.arrived b audit token) := by
  rw [come, if_neg (by simp [hon]), Request.read?]
  cases b.fault? <;> rfl

theorem settles_of_isOpen (hs : s.Reachable) (hon : token.any (· ∈ s.fired) = false)
    (hb : b.fault? = none) (he : e.isOpen = false) : s.Settles b audit token e := by
  refine ⟨s.arrived b audit token, by rw [come_eq hon, hb], fun as s' hrun hon' hends => ?_⟩
  have hreachable : s'.Reachable :=
    hs.trans (.step (a := .arrive b audit token) rfl ⟨as, hrun⟩)
  have hsound : Sound s' := sound_empty.reaches hreachable
  have hserved : Served s' := served_empty.reaches sound_empty hreachable
  have hkept : Kept s' := kept_empty.reaches hreachable
  have hc₀ : (s.arrived b audit token).callers[s.callers.length]? =
      some { batch := b, audit, token } := List.getElem?_concat_length
  obtain ⟨phase, hc, htaken⟩ := run_taken hrun hc₀
  constructor
  case starts =>
    intro hnone
    obtain ⟨-, hcount⟩ := htaken (hkept.isEarly_of_not_owns hsound hserved hc hon' hnone)
    have hzero : Phase.arriving.taken = 0 := rfl
    have hle := phase.taken_le
    omega
  case moves => exact hkept.moves hc
  case ends =>
    rintro ⟨w, k, hk, howner, hwork⟩ as' s'' hrun' hon''
    exact Nat.le_trans (countP_le_left hsound hc hk howner hwork he hrun' hon'') (Phase.left_le _)
  case replies =>
    rintro reply ⟨d, hd, hreply⟩
    cases hc.symm.trans hd
    obtain ⟨e', hended, he', rfl⟩ := hkept.exists_ended hsound hserved hc hon' hreply
    rw [← hends e' hended]
    exact ⟨hended, Reply.suits_ofEnding he'⟩

theorem not_settles_of_fault (hon : token.any (· ∈ s.fired) = false) {fault : PathFault}
    (hb : b.fault? = some fault) : ¬ s.Settles b audit token e := by
  rintro ⟨s₀, hcome, -⟩
  rw [come_eq hon, hb] at hcome
  cases hcome

/-! ## Calls that fail by a time-out -/

/-- A caller whose call has failed by a time-out does not leave before its token fires. -/
theorem not_left_of_timedOut (hs : s.Reachable) (hc : s.callers[i]? = some c)
    (hoff : s.calledOff c = false) (h : s.Ended i .timedOut) (reply : Reply) : ¬ s.Left i reply := by
  rintro ⟨d, hd, hreply⟩
  cases hc.symm.trans hd
  obtain ⟨w, k, hk, rfl, hwork⟩ := h
  obtain ⟨d, hd, hstanding⟩ := (sound_empty.reaches hs).standing w k hk
  cases hc.symm.trans hd
  cases hstanding with
  | awaited hw => rw [hreply] at hw; cases hw
  | delivered hwork' he =>
    cases hwork.symm.trans hwork'
    cases he
  | abandoned _ _ hoff' => rw [hoff] at hoff'; cases hoff'

/-- A caller that comes while the lock is free has its call made. -/
theorem run_arrived (hfree : s.holder = none) (hon : token.any (· ∈ s.fired) = false) :
    run [.go s.callers.length, .go s.callers.length, .go s.callers.length,
        .enter s.workers.length] (s.arrived b audit token) =
      some (s.joined ⟨b, audit, token, .looking s.workers.length⟩ .running) := by
  simp [run, step, go, setPhase, setWork, calledOff, hon, hfree, modify_concat, arrived, joined,
    Caller.request]

/-- The new worker's caller has no other worker. -/
theorem Sound.ended_joined (h : Sound s) {e' : Ending}
    (hended : (s.joined c (.ended e)).Ended s.callers.length e') : e' = e := by
  obtain ⟨w, k, hk, howner, hwork⟩ := hended
  rcases getElem?_push_eq_some.1 hk with hold | ⟨-, rfl⟩
  · obtain ⟨d, hd, -⟩ := h.standing w k hold
    rw [howner, List.getElem?_eq_none (Nat.le_refl _)] at hd
    cases hd
  · cases hwork
    rfl

/-- The wait for a call that has failed by a time-out takes more steps than it may. -/
theorem not_settles_timedOut (hs : s.Reachable) (hfree : s.holder = none)
    (hon : token.any (· ∈ s.fired) = false) (hb : b.fault? = none) :
    ¬ s.Settles b audit token .timedOut := by
  rintro ⟨s₀, hcome, hsettling⟩
  rw [come_eq hon, hb] at hcome
  cases hcome
  let c : Caller := ⟨b, audit, token, .looking s.workers.length⟩
  have hfinish := step_finish_joined (s := s) (c := c) (e := .timedOut) nofun
  have hended : run [.go s.callers.length, .go s.callers.length, .go s.callers.length,
      .enter s.workers.length, .finish s.workers.length .timedOut] (s.arrived b audit token) =
        some (s.joined c (.ended .timedOut)) := by
    have happend := run_append (s := s.arrived b audit token) [.go s.callers.length,
      .go s.callers.length, .go s.callers.length, .enter s.workers.length]
      [.finish s.workers.length .timedOut]
    rw [run_arrived hfree hon, Option.bind_some, run, hfinish, Option.bind_some, run] at happend
    exact happend
  have hstands := hsettling _ _ hended hon
    fun e' => (sound_empty.reaches hs).ended_joined
  -- the caller looks at its token, waits in vain, and looks at its token again
  have hlook : (s.joined c (.ended .timedOut)).step (.go s.callers.length) =
      some (s.joined { c with phase := .waiting s.workers.length } (.ended .timedOut)) :=
    go_looking_joined rfl hon
  have hvain : (s.joined { c with phase := .waiting s.workers.length } (.ended .timedOut)).step
      (.go s.callers.length) = some (s.joined c (.ended .timedOut)) :=
    go_vain_joined rfl (by rw [ending?_joined_ended]; rfl)
  have hagain : run [.go s.callers.length, .go s.callers.length, .go s.callers.length]
      (s.joined c (.ended .timedOut)) =
        some (s.joined { c with phase := .waiting s.workers.length } (.ended .timedOut)) := by
    rw [run, hlook, Option.bind_some, run, hvain, Option.bind_some, run, hlook, Option.bind_some,
      run]
  have hcount := hstands.ends ⟨_, _, List.getElem?_concat_length, rfl, rfl⟩ _ _ hagain hon
  simp [Action.isOf] at hcount

/-! ## Which calls settle -/

/-- An `invoke` comes to its end as it should if the files of its batch can be asked for and its call
does not fail by a time-out, and while the lock is free only then. -/
theorem settles_exactly (hs : s.Reachable) (hon : token.any (· ∈ s.fired) = false)
    (he : e ≠ .silent) :
    (b.fault? = none ∧ e ≠ .timedOut → s.Settles b audit token e) ∧
      (s.holder = none → s.Settles b audit token e → b.fault? = none ∧ e ≠ .timedOut) := by
  constructor
  · rintro ⟨hb, hnot⟩
    have hclosed : e.isOpen = false := by
      cases e with
      | timedOut => exact absurd rfl hnot
      | silent => exact absurd rfl he
      | _ => rfl
    exact settles_of_isOpen hs hon hb hclosed
  · intro hfree h
    have hb : b.fault? = none := by
      cases hb : b.fault? with
      | none => rfl
      | some fault => exact absurd h (not_settles_of_fault hon hb)
    refine ⟨hb, ?_⟩
    rintro rfl
    exact not_settles_timedOut hs hfree hon hb h

theorem settles_exactly_now : Traffic.Reachable {} ∧
    Settles {} Sample.batch none none (.text "now") := by
  have hends : Ending.text "now" ≠ .silent := nofun
  exact ⟨.refl _, (settles_exactly (.refl _) rfl hends).1 ⟨rfl, nofun⟩⟩

/-- A batch with a file that no system can be asked for. -/
def Sample.nulBatch : Batch where
  group := .typescript
  files := [
    { path := "/a\x00.ts", relative := "a\x00.ts", size := 0, extension := ".ts"
      group := some .typescript, index := 0, reading := .failed "" }]

/-- Of a model that would answer nothing is heard, and a time-out is waited for without end. -/
theorem not_settles_nul_timedOut :
    Adapter.ask (.scripted [.text "x"]) none [] Sample.nulBatch {} ⟨0, [], false⟩ = .error ⟨.nul, []⟩ ∧
      ¬ Settles {} Sample.nulBatch none none (.text "x") ∧
        ¬ Settles {} Sample.batch none none .timedOut :=
  ⟨rfl, not_settles_of_fault rfl rfl, not_settles_timedOut (.refl _) rfl rfl rfl⟩

end Traffic

end PerfReview
