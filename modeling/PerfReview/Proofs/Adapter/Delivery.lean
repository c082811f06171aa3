import PerfReview.Proofs.Adapter.History

/-!
# Answers and the callers they go to

An answer goes to the caller whose request was made, and to nobody else. A call is made for the
request of its owner, its ending is given to the owner at most once and not at all if the call was
left alone, and a caller whose token has fired while it still waits for the lock has no call made.
-/

namespace PerfReview

namespace Traffic

variable {s s' : Traffic} {i w : Nat} {c : Caller} {k : Worker}

/-! ## Whose call is made -/

/-- A caller's step is a change of its phase, and it leaves without a call or with its own. -/
theorem Goes.turns (h : Goes s i c s') : (∀ reply, c.phase ≠ .returned reply) ∧
    ∃ phase, s'.callers = (s.setPhase i phase).callers ∧
      ∀ reply, phase = .returned reply → reply = refusal ∨ ∃ w, c.phase.worker? = some w := by
  cases h with
  | refused hphase => exact ⟨by simp [hphase], _, rfl, by simp⟩
  | queued hphase => exact ⟨by simp [hphase], _, rfl, nofun⟩
  | admitted hphase => exact ⟨by simp [hphase], .admitted, rfl, nofun⟩
  | turned hphase => exact ⟨by simp [hphase], .returned refusal, rfl, by simp⟩
  | started hphase => exact ⟨by simp [hphase], .looking s.workers.length, rfl, nofun⟩
  | abandoned w hphase =>
    exact ⟨by simp [hphase], .returned _, rfl, fun _ _ => .inr ⟨w, by rw [hphase]; rfl⟩⟩
  | waits w hphase => exact ⟨by simp [hphase], _, rfl, nofun⟩
  | delivered w e hphase =>
    exact ⟨by simp [hphase], .returned _, rfl, fun _ _ => .inr ⟨w, by rw [hphase]; rfl⟩⟩
  | looks w hphase => exact ⟨by simp [hphase], _, rfl, nofun⟩

theorem step_other {a : Action} (e : s.step a = some s') (ha : a ≠ .go i)
    (hc : s.callers[i]? = some c) : s'.callers[i]? = some c := by
  cases a with
  | arrive b audit token =>
    cases e
    exact getElem?_push_eq_some.2 (.inl hc)
  | go j =>
    obtain ⟨d, hd, e⟩ := Option.bind_eq_some_iff.1 e
    obtain ⟨-, phase, hcallers, -⟩ := (goes_of_go e).turns
    have hji : j ≠ i := fun h => ha (congrArg Action.go h)
    rw [hcallers, getElem?_setPhase hd, if_neg hji, hc]
  | enter w =>
    obtain ⟨-, rfl⟩ := eq_of_enter e
    exact hc
  | finish w ending =>
    obtain ⟨-, rfl⟩ := eq_of_finish e
    exact hc
  | fire t =>
    cases e
    exact hc

theorem step_caller {a : Action} (e : s.step a = some s') (hc : s.callers[i]? = some c) :
    ∃ phase, s'.callers[i]? = some { c with phase } := by
  by_cases ha : a = .go i
  · subst ha
    obtain ⟨d, hd, e⟩ := Option.bind_eq_some_iff.1 e
    obtain ⟨-, phase, hcallers, -⟩ := (goes_of_go e).turns
    cases hc.symm.trans hd
    exact ⟨phase, by rw [hcallers, getElem?_setPhase hd, if_pos rfl]⟩
  · exact ⟨c.phase, step_other e ha hc⟩

theorem Goes.workers (h : Goes s i c s') : (∃ w, s'.workers = (s.drop w).workers) ∨
    s'.workers = s.workers ∨ s'.workers = s.workers ++ [⟨i, c.request, .idle⟩] := by
  cases h with
  | abandoned w => exact .inl ⟨w, rfl⟩
  | started => exact .inr (.inr rfl)
  | _ => exact .inr (.inl rfl)

/-- A worker keeps its owner and its request, and a new one has the request of its owner. -/
theorem step_worker {a : Action} (e : s.step a = some s') (hk : s'.workers[w]? = some k) :
    (∃ k', s.workers[w]? = some k' ∧ k'.owner = k.owner ∧ k'.request = k.request) ∨
      ∃ c, s.callers[k.owner]? = some c ∧ k.request = c.request := by
  cases a with
  | arrive b audit token =>
    cases e
    exact .inl ⟨k, hk, rfl, rfl⟩
  | go j =>
    obtain ⟨d, hd, e⟩ := Option.bind_eq_some_iff.1 e
    rcases (goes_of_go e).workers with ⟨u, hworkers⟩ | hworkers | hworkers
    · rw [hworkers, getElem?_drop] at hk
      obtain ⟨k', hk', rfl⟩ := Option.map_eq_some_iff.1 hk
      exact .inl ⟨k', hk', by split <;> rfl, by split <;> rfl⟩
    · exact .inl ⟨k, hworkers ▸ hk, rfl, rfl⟩
    · rw [hworkers] at hk
      rcases getElem?_push_eq_some.1 hk with hold | ⟨-, rfl⟩
      · exact .inl ⟨k, hold, rfl, rfl⟩
      · exact .inr ⟨d, hd, rfl⟩
  | enter u =>
    obtain ⟨-, rfl⟩ := eq_of_enter e
    obtain ⟨k', hk', rfl⟩ := Option.map_eq_some_iff.1 ((getElem?_setWork s u _ w).symm.trans hk)
    exact .inl ⟨k', hk', by split <;> rfl, by split <;> rfl⟩
  | finish u ending =>
    obtain ⟨-, rfl⟩ := eq_of_finish e
    obtain ⟨k', hk', rfl⟩ := Option.map_eq_some_iff.1 ((getElem?_setWork s u _ w).symm.trans hk)
    exact .inl ⟨k', hk', by split <;> rfl, by split <;> rfl⟩
  | fire t =>
    cases e
    exact .inl ⟨k, hk, rfl, rfl⟩

theorem step_left (hs : Sound s) {a : Action} (e : s.step a = some s') {reply : Reply}
    (h : s'.Left i reply) : s.Left i reply ∨ reply = refusal ∨ ∃ w, s.Owns i w := by
  cases a with
  | arrive b audit token =>
    cases e
    obtain ⟨d, hd, hreply⟩ := h
    rcases getElem?_push_eq_some.1 hd with hold | ⟨-, rfl⟩
    · exact .inl ⟨d, hold, hreply⟩
    · cases hreply
  | go j =>
    obtain ⟨d, hd, e⟩ := Option.bind_eq_some_iff.1 e
    obtain ⟨hopen, phase, hcallers, hphase⟩ := (goes_of_go e).turns
    rcases (left_of_setPhase hd hopen hcallers).1 h with h | ⟨rfl, hreply⟩
    · exact .inl h
    · refine .inr ((hphase reply hreply).imp_right fun ⟨w, hw⟩ => ⟨w, ?_⟩)
      exact (hs.owns_iff hd hw).2 rfl
  | enter w =>
    obtain ⟨-, rfl⟩ := eq_of_enter e
    exact .inl h
  | finish w ending =>
    obtain ⟨-, rfl⟩ := eq_of_finish e
    exact .inl h
  | fire t =>
    cases e
    exact .inl h

/-- Every call is made for the request of its owner, and a caller that left without being refused
had a call made. -/
structure Served (s : Traffic) : Prop where
  request : ∀ (w : Nat) (k : Worker), s.workers[w]? = some k →
    ∃ c, s.callers[k.owner]? = some c ∧ k.request = c.request
  answered : ∀ i reply, s.Left i reply → reply = refusal ∨ ∃ w, s.Owns i w

theorem Served.step (h : Served s) (hs : Sound s) {a : Action} (e : s.step a = some s') :
    Served s' := by
  constructor
  case request =>
    intro w k hk
    have hasks : ∃ c, s.callers[k.owner]? = some c ∧ k.request = c.request := by
      rcases step_worker e hk with ⟨k', hk', howner, hrequest⟩ | hc
      · rw [← howner, ← hrequest]
        exact h.request w k' hk'
      · exact hc
    obtain ⟨c, hc, hrequest⟩ := hasks
    obtain ⟨phase, hc'⟩ := step_caller e hc
    exact ⟨_, hc', hrequest⟩
  case answered =>
    intro i reply hleft
    have howns : ∀ w, s.Owns i w → s'.Owns i w :=
      fun w hw => ((tells_step hs e (.started i w)).1).2 (.inl hw)
    have hcase : reply = refusal ∨ ∃ w, s.Owns i w :=
      (step_left hs e hleft).elim (h.answered i reply) id
    exact hcase.imp_right fun ⟨w, hw⟩ => ⟨w, howns w hw⟩

theorem Served.reaches (h : Served s) (hs : Sound s) (e : s.Reaches s') : Served s' :=
  (e.preserves (P := fun s => Sound s ∧ Served s)
    (fun ⟨hs, h⟩ e => ⟨hs.step e, h.step hs e⟩) ⟨hs, h⟩).2

theorem served_empty : Served {} := ⟨nofun, fun _ _ ⟨_, hd, _⟩ => by cases hd⟩

/-! ## Callers that are called off before they hold the lock -/

/-- The token of a caller has fired before its call was made, or it was refused. -/
def Barred (s : Traffic) (i : Nat) : Prop := ∃ c, s.callers[i]? = some c ∧
  s.calledOff c = true ∧ (c.phase.isEarly = true ∨ c.phase = .returned refusal)

theorem step_fired {a : Action} (e : s.step a = some s') : s.fired ⊆ s'.fired := by
  cases a with
  | go j =>
    obtain ⟨d, -, e⟩ := Option.bind_eq_some_iff.1 e
    cases goes_of_go e <;> exact List.Subset.refl _
  | fire t =>
    cases e
    exact List.subset_cons_self _ _
  | arrive b audit token => cases e; exact List.Subset.refl _
  | enter w =>
    obtain ⟨-, rfl⟩ := eq_of_enter e
    exact List.Subset.refl _
  | finish w ending =>
    obtain ⟨-, rfl⟩ := eq_of_finish e
    exact List.Subset.refl _

/-- A caller that is called off comes as far as the lock, and is refused there. -/
theorem Goes.barred (h : Goes s i c s') (hoff : s.calledOff c = true)
    (hphase : c.phase.isEarly = true ∨ c.phase = .returned refusal) :
    ∃ phase, s'.callers = (s.setPhase i phase).callers ∧
      (phase.isEarly = true ∨ phase = .returned refusal) := by
  cases h with
  | refused => exact ⟨_, rfl, .inr rfl⟩
  | queued => exact ⟨_, rfl, .inl rfl⟩
  | admitted => exact ⟨.admitted, rfl, .inl rfl⟩
  | turned => exact ⟨.returned refusal, rfl, .inr rfl⟩
  | started _ hon => cases hoff.symm.trans hon
  | abandoned w h => rw [h] at hphase; simp [Phase.isEarly] at hphase
  | waits w h => rw [h] at hphase; simp [Phase.isEarly] at hphase
  | delivered w e h => rw [h] at hphase; simp [Phase.isEarly] at hphase
  | looks w h => rw [h] at hphase; simp [Phase.isEarly] at hphase

theorem Barred.step (h : s.Barred i) {a : Action} (e : s.step a = some s') : s'.Barred i := by
  obtain ⟨c, hc, hoff, hphase⟩ := h
  have hoff' : ∀ p : Phase, s'.calledOff { c with phase := p } = true :=
    fun _ => calledOff_mono (step_fired e) hoff
  by_cases ha : a = .go i
  · subst ha
    obtain ⟨d, hd, e⟩ := Option.bind_eq_some_iff.1 e
    cases hc.symm.trans hd
    obtain ⟨phase, hcallers, hphase⟩ := (goes_of_go e).barred hoff hphase
    refine ⟨_, ?_, hoff' phase, hphase⟩
    rw [hcallers, getElem?_setPhase hd, if_pos rfl]
  · exact ⟨c, step_other e ha hc, hoff' c.phase, hphase⟩

theorem Barred.reaches (h : s.Barred i) (e : s.Reaches s') : s'.Barred i :=
  e.preserves (P := fun s => s.Barred i) (fun h e => h.step e) h

/-- No call is made for a caller that is called off before it holds the lock. -/
theorem Barred.not_owns (h : s.Barred i) (hs : Sound s) : ¬ s.Owns i w := by
  obtain ⟨c, hc, -, hearly | hrefused⟩ := h
  · exact hs.not_owns hc hearly
  · rintro ⟨k, hk, rfl⟩
    obtain ⟨d, hd, hstanding⟩ := hs.standing w k hk
    cases hc.symm.trans hd
    cases hstanding with
    | awaited hw => rw [hrefused] at hw; cases hw
    | delivered _ hclosed hphase =>
      have hreply : Reply.ofEnding _ = refusal := Phase.returned.inj (hphase.symm.trans hrefused)
      rw [(Reply.ofEnding_eq_cancelled_iff.1 hreply).1] at hclosed
      cases hclosed
    | abandoned _ hphase =>
      exact absurd (hrefused.symm.trans hphase) (by decide)

theorem run_append (as bs : List Action) : run (as ++ bs) s = (run as s).bind (run bs) := by
  induction as generalizing s with
  | nil => rfl
  | cons a as ih =>
    rw [List.cons_append, run, run, Option.bind_assoc]
    exact congrArg _ (funext fun s₁ => ih)

/-! ## Answers -/

/-- A history has each of its events once, so a key that tells events apart occurs once. -/
theorem Ledger.nodup_keys {es : List Event} (h : Ledger s es) {key : Event → Option Nat}
    (hkey : ∀ v v' w, s.Happened v → s.Happened v' → key v = some w → key v' = some w → v = v') :
    (es.filterMap key).Nodup := by
  refine List.pairwise_filterMap.2 (h.nodup.imp_of_mem fun {v v'} hv hv' hne w hw w' hw' e => ?_)
  subst e
  exact hne (hkey v v' w ((h.mem_iff v).1 hv) ((h.mem_iff v').1 hv') hw hw')

theorem Owns.unique {j : Nat} (h : s.Owns i w) (h' : s.Owns j w) : i = j := by
  obtain ⟨k, hk, rfl⟩ := h
  obtain ⟨k', hk', rfl⟩ := h'
  cases hk.symm.trans hk'
  rfl

theorem Left.unique {reply reply' : Reply} (h : s.Left i reply) (h' : s.Left i reply') :
    reply = reply' := by
  obtain ⟨c, hc, hreply⟩ := h
  obtain ⟨c', hc', hreply'⟩ := h'
  cases hc.symm.trans hc'
  exact Phase.returned.inj (hreply.symm.trans hreply')

/-- A caller that has left with a text was given it by the worker of its own call. -/
theorem Served.exists_worker (h : Served s) (hs : Sound s) (hc : s.callers[i]? = some c)
    {text : String} (hphase : c.phase = .returned (.answer text)) :
    ∃ (w : Nat) (k : Worker), s.workers[w]? = some k ∧ k.owner = i ∧ k.request = c.request ∧
      k.work = .ended (.text text) := by
  have howns : ∃ w, s.Owns i w := (h.answered i _ ⟨c, hc, hphase⟩).resolve_left nofun
  obtain ⟨w, k, hk, rfl⟩ := howns
  obtain ⟨c₁, hc₁, hrequest⟩ := h.request w k hk
  obtain ⟨c₂, hc₂, hstanding⟩ := hs.standing w k hk
  cases hc.symm.trans hc₁
  cases hc.symm.trans hc₂
  refine ⟨w, k, hk, rfl, hrequest, ?_⟩
  cases hstanding with
  | awaited hw => rw [hphase] at hw; cases hw
  | delivered hwork _ hreply =>
    have htext : Reply.ofEnding _ = .answer text := Phase.returned.inj (hreply.symm.trans hphase)
    rw [hwork, (Reply.ofEnding_eq_answer_iff.1 htext).1]
  | abandoned _ hreply => cases hphase.symm.trans hreply

/-- How the answers of a run go to its callers. -/
structure Orderly (as : List Action) (s : Traffic) : Prop where
  /-- A text that a caller leaves with was given by the call that was made for its request. -/
  own : ∀ (i : Nat) (c : Caller) text, s.callers[i]? = some c →
    c.phase = .returned (.answer text) → ∃ (w : Nat) (k : Worker), s.workers[w]? = some k ∧
      k.request = c.request ∧ k.work = .ended (.text text) ∧ .started i w ∈ events as {} ∧
        .entered w ∈ events as {} ∧ .delivered i w (.answer text) ∈ events as {}
  /-- What a call gives goes to one caller at most. -/
  once : ((events as {}).filterMap Event.delivered?).Nodup
  /-- What a call gives that was left alone goes to nobody. -/
  unheard : ∀ i w, .abandoned i w ∈ events as {} →
    ∀ j reply, .delivered j w reply ∉ events as {}
  /-- A caller whose token has fired before it holds the lock never has a call made. -/
  barred : ∀ before after s₁ (i : Nat) (c : Caller), as = before ++ after →
    run before {} = some s₁ → s₁.callers[i]? = some c →
      c.phase = .arriving ∨ c.phase = .queued → s₁.calledOff c = true →
        ∀ w, .started i w ∉ events as {}
  /-- Every call that is made was started by one caller, and once. -/
  made : ∀ w, .entered w ∈ events as {} →
    ∃ i, .started i w ∈ events as {} ∧ ∀ j, .started j w ∈ events as {} → j = i
  starts : ((events as {}).filterMap Event.started?).Nodup

theorem orderly_of_run {as : List Action} (h : run as {} = some s) : Orderly as s := by
  have hsound : Sound s := sound_empty.reaches ⟨as, h⟩
  have hserved : Served s := served_empty.reaches sound_empty ⟨as, h⟩
  have hledger : Ledger s (events as {}) := ledger_of_run h
  constructor
  case own =>
    intro i c text hc hphase
    obtain ⟨w, k, hk, howner, hrequest, hwork⟩ := hserved.exists_worker hsound hc hphase
    refine ⟨w, k, hk, hrequest, hwork, ?_, ?_, ?_⟩
    · exact (hledger.mem_iff _).2 ⟨k, hk, howner⟩
    · exact (hledger.mem_iff _).2 ⟨k, hk, by rw [hwork]; rfl⟩
    · exact (hledger.mem_iff _).2 ⟨⟨k, hk, howner⟩, ⟨c, hc, hphase⟩, nofun⟩
  case once =>
    refine hledger.nodup_keys fun v v' w hv hv' hw hw' => ?_
    cases v with
    | delivered i u reply =>
      cases v' with
      | delivered j u' reply' =>
        cases hw
        cases hw'
        cases hv.1.unique hv'.1
        rw [hv.2.1.unique hv'.2.1]
      | _ => cases hw'
    | _ => cases hw
  case unheard =>
    intro i w hleft j reply hgiven
    obtain ⟨howns, hreply⟩ := (hledger.mem_iff _).1 hleft
    obtain ⟨howns', hreply', hne⟩ := (hledger.mem_iff _).1 hgiven
    cases howns.unique howns'
    exact hne (hreply'.unique hreply)
  case barred =>
    rintro before after s₁ i c rfl hbefore hc hphase hoff w hstarted
    rw [run_append, hbefore, Option.bind_some] at h
    have hearly : c.phase.isEarly = true := by rcases hphase with e | e <;> rw [e] <;> rfl
    have hbarred : s.Barred i := Barred.reaches ⟨c, hc, hoff, .inl hearly⟩ ⟨after, h⟩
    exact hbarred.not_owns hsound ((hledger.mem_iff _).1 hstarted)
  case made =>
    intro w hw
    obtain ⟨k, hk, -⟩ := (hledger.mem_iff _).1 hw
    refine ⟨k.owner, (hledger.mem_iff _).2 ⟨k, hk, rfl⟩, fun i hi => ?_⟩
    exact Owns.unique ((hledger.mem_iff _).1 hi) ⟨k, hk, rfl⟩
  case starts =>
    refine hledger.nodup_keys fun v v' w hv hv' hw hw' => ?_
    cases v with
    | started i u =>
      cases v' with
      | started j u' =>
        cases hw
        cases hw'
        rw [Owns.unique hv hv']
      | _ => cases hw'
    | _ => cases hw

/-- A caller leaves its call, which ends while the call of the next one goes on; a third comes with
the token of the first. -/
def Sample.lateAnswer : List Action :=
  [.arrive Sample.batch none (some 0), .go 0, .go 0, .go 0, .enter 0, .fire 0, .go 0,
    .arrive Sample.batch none none, .go 1, .go 1, .go 1, .enter 1, .finish 0 (.text "late"), .go 1,
    .finish 1 (.text "now"), .go 1, .arrive Sample.batch none (some 0), .go 2]

example : events Sample.lateAnswer {} = [.started 0 0, .entered 0, .abandoned 0 0, .started 1 1,
    .entered 1, .delivered 1 1 (.answer "now")] := rfl

def Sample.answered : Traffic where
  callers := [⟨Sample.batch, none, some 0, .returned (.cancelled Reply.abandonedReason)⟩,
    ⟨Sample.batch, none, none, .returned (.answer "now")⟩,
    ⟨Sample.batch, none, some 0, .returned refusal⟩]
  workers := [⟨0, Request.ofBatch Sample.batch none, .ended (.text "late")⟩,
    ⟨1, Request.ofBatch Sample.batch none, .ended (.text "now")⟩]
  fired := [0]

theorem orderly_of_run_lateAnswer :
    run Sample.lateAnswer {} = some Sample.answered ∧ Orderly Sample.lateAnswer Sample.answered :=
  ⟨rfl, orderly_of_run rfl⟩

end Traffic

end PerfReview
