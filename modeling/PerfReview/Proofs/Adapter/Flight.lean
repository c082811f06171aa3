import PerfReview.Proofs.Adapter.Traffic

/-!
# Calls in flight

A worker that is making a call either makes it for the caller that holds the lock, or was left alone
by a caller whose token fired. So there is one call in flight at a time besides those left alone.
But a caller that leaves a running call gives the lock back, and the next one has its call made
beside it.
-/

namespace PerfReview

/-- The caller has not had its call made yet. -/
def Phase.isEarly : Phase → Bool
  | arriving | queued | admitted => true
  | _ => false

theorem Phase.worker?_of_isEarly {p : Phase} (h : p.isEarly = true) : p.worker? = none := by
  cases p <;> first | rfl | cases h

namespace Traffic

def Running (s : Traffic) (w : Nat) : Prop := ∃ k, s.workers[w]? = some k ∧ k.work = .running

/-- A worker was left alone by its caller, whose token has fired. -/
def Abandoned (s : Traffic) (w : Nat) : Prop :=
  ∃ k c, s.workers[w]? = some k ∧ s.callers[k.owner]? = some c ∧
    c.phase = .returned (.cancelled Reply.abandonedReason) ∧ s.calledOff c = true

/-- A worker is waited for by its caller, which holds the lock. -/
def Awaited (s : Traffic) (w : Nat) : Prop :=
  ∃ k c, s.workers[w]? = some k ∧ s.callers[k.owner]? = some c ∧ c.phase.worker? = some w ∧
    s.holder = some k.owner

/-- How a worker and its caller stand to each other. -/
inductive Standing (s : Traffic) (w : Nat) (work : Work) (c : Caller) : Prop where
  | awaited : c.phase.worker? = some w → work ≠ .dropped → Standing s w work c
  | delivered {e : Ending} : work = .ended e → e.isOpen = false →
      c.phase = .returned (.ofEnding e) →
      Standing s w work c
  | abandoned : work ≠ .idle → c.phase = .returned (.cancelled Reply.abandonedReason) →
      s.calledOff c = true → Standing s w work c

/-- Only the holder of the lock is inside, the worker that it waits for is its own, and every worker
stands well with its caller. -/
structure Sound (s : Traffic) : Prop where
  inside : ∀ i (c : Caller), s.callers[i]? = some c → c.phase.isInside = true → s.holder = some i
  own : ∀ i (c : Caller) w, s.callers[i]? = some c → c.phase.worker? = some w →
    ∃ k : Worker, s.workers[w]? = some k ∧ k.owner = i
  standing : ∀ w (k : Worker), s.workers[w]? = some k →
    ∃ c, s.callers[k.owner]? = some c ∧ Standing s w k.work c

variable {s s' : Traffic} {i w : Nat} {c : Caller} {phase : Phase} {k : Worker}

theorem calledOff_mono (hfired : s.fired ⊆ s'.fired) (h : s.calledOff c = true) :
    s'.calledOff c = true := by
  unfold calledOff at h ⊢
  rw [Option.any_eq_true] at h ⊢
  obtain ⟨t, ht, hmem⟩ := h
  exact ⟨t, ht, decide_eq_true (hfired (of_decide_eq_true hmem))⟩

/-- How a worker and its caller stand to each other is not changed by more tokens that fire. -/
theorem Standing.mono {work : Work} (h : Standing s w work c) (hfired : s.fired ⊆ s'.fired) :
    Standing s' w work c := by
  cases h with
  | awaited hw hwork => exact .awaited hw hwork
  | delivered hwork he hphase => exact .delivered hwork he hphase
  | abandoned hwork hphase hoff =>
    exact .abandoned hwork hphase (calledOff_mono hfired hoff)

/-! ## Callers and their workers -/

/-- Before its call is made a caller has no worker. -/
theorem Sound.owner_ne (h : Sound s) (hc : s.callers[i]? = some c) (hearly : c.phase.isEarly = true)
    (hk : s.workers[w]? = some k) : k.owner ≠ i := by
  rintro rfl
  obtain ⟨d, hd, hstanding⟩ := h.standing w k hk
  cases hc.symm.trans hd
  cases hstanding with
  | awaited hw => cases (Phase.worker?_of_isEarly hearly).symm.trans hw
  | delivered _ _ hphase => rw [hphase] at hearly; cases hearly
  | abandoned _ hphase => rw [hphase] at hearly; cases hearly

theorem Sound.eq_of_owner (h : Sound s) (hc : s.callers[i]? = some c)
    (hworker : c.phase.worker? = some w) {w' : Nat} (hk : s.workers[w']? = some k)
    (howner : k.owner = i) : w' = w ∧ k.work ≠ .dropped := by
  subst howner
  obtain ⟨d, hd, hstanding⟩ := h.standing w' k hk
  cases hc.symm.trans hd
  cases hstanding with
  | awaited hw hwork => exact ⟨Option.some.inj (hw.symm.trans hworker), hwork⟩
  | delivered _ _ hphase => rw [hphase] at hworker; cases hworker
  | abandoned _ hphase => rw [hphase] at hworker; cases hworker

theorem ending?_eq_some (hk : s.workers[w]? = some k) {e : Ending} (h : s.ending? w = some e) :
    k.work = .ended e ∧ e.isOpen = false := by
  unfold ending? at h
  rw [hk] at h
  split at h
  · rename_i hk'
    cases hk'
    split at h
    · cases h
    · rename_i hopen
      cases h
      exact ⟨rfl, by simpa using hopen⟩
  · cases h

/-! ## Steps of a caller -/

theorem getElem?_setPhase (hc : s.callers[i]? = some c) (phase : Phase) (j : Nat) :
    (s.setPhase i phase).callers[j]? =
      if i = j then some { c with phase } else s.callers[j]? := by
  rw [setPhase, List.getElem?_modify]
  by_cases hij : i = j
  · subst hij
    simp [hc]
  · simp [hij]

/-- What has to be seen to when a caller goes on to another phase. -/
structure Moves (s s' : Traffic) (i : Nat) (c : Caller) (phase : Phase) : Prop where
  callers : s'.callers = (s.setPhase i phase).callers
  fired : s.fired ⊆ s'.fired
  inside : phase.isInside = true → s'.holder = some i
  others : ∀ j, j ≠ i → s.holder = some j → s'.holder = some j
  own : ∀ w : Nat, phase.worker? = some w → ∃ k : Worker, s'.workers[w]? = some k ∧ k.owner = i
  kept : ∀ (w : Nat) (k : Worker), k.owner ≠ i → s.workers[w]? = some k →
    s'.workers[w]? = some k
  standing : ∀ (w : Nat) (k : Worker), s'.workers[w]? = some k →
    (k.owner ≠ i ∧ s.workers[w]? = some k) ∨
      (k.owner = i ∧ Standing s w k.work { c with phase })

theorem Sound.move (h : Sound s) (hc : s.callers[i]? = some c) (hm : Moves s s' i c phase) :
    Sound s' := by
  have hget : ∀ j, s'.callers[j]? = if i = j then some { c with phase } else s.callers[j]? :=
    fun j => by rw [hm.callers, getElem?_setPhase hc]
  constructor
  case inside =>
    intro j d hd hin
    rw [hget] at hd
    split at hd
    · rename_i hij
      cases hd
      exact hij ▸ hm.inside hin
    · rename_i hij
      exact hm.others j (Ne.symm hij) (h.inside j d hd hin)
  case own =>
    intro j d w hd hw
    rw [hget] at hd
    split at hd
    · rename_i hij
      cases hd
      exact hij ▸ hm.own w hw
    · rename_i hij
      obtain ⟨k, hk, rfl⟩ := h.own j d w hd hw
      exact ⟨k, hm.kept w k (Ne.symm hij) hk, rfl⟩
  case standing =>
    intro w k hk
    obtain ⟨howner, hk⟩ | ⟨howner, hstanding⟩ := hm.standing w k hk
    · obtain ⟨d, hd, hstanding⟩ := h.standing w k hk
      exact ⟨d, by rw [hget, if_neg (Ne.symm howner), hd], hstanding.mono hm.fired⟩
    · exact ⟨_, by rw [hget, if_pos howner.symm], hstanding.mono hm.fired⟩

theorem Sound.move_alone (h : Sound s) (hc : s.callers[i]? = some c)
    (hearly : c.phase.isEarly = true) (hphase : phase.worker? = none) {holder : Option Nat}
    (hinside : phase.isInside = true → holder = some i)
    (hothers : ∀ j, j ≠ i → s.holder = some j → holder = some j) :
    Sound { s.setPhase i phase with holder } := by
  refine h.move hc ⟨rfl, List.Subset.refl _, hinside, hothers, fun w hw => ?_,
    fun _ _ _ hk => hk, fun w k hk => ?_⟩
  · cases hphase.symm.trans hw
  · exact .inl ⟨h.owner_ne hc hearly hk, hk⟩

theorem Sound.move_with (h : Sound s) (hc : s.callers[i]? = some c)
    (hworker : c.phase.worker? = some w) (hphase : phase.worker? = some w) :
    Sound (s.setPhase i phase) := by
  have hholder : s.holder = some i := h.inside i c hc (Phase.isInside_of_worker? hworker)
  refine h.move hc ⟨rfl, List.Subset.refl _, fun _ => hholder, fun _ _ hj => hj, fun w' hw' => ?_,
    fun _ _ _ hk => hk, fun w' k hk => ?_⟩
  · cases hphase.symm.trans hw'
    exact h.own i c w hc hworker
  · by_cases howner : k.owner = i
    · obtain ⟨rfl, hwork⟩ := h.eq_of_owner hc hworker hk howner
      exact .inr ⟨howner, .awaited hphase hwork⟩
    · exact .inl ⟨howner, hk⟩

theorem Sound.leave_others (h : Sound s) (hc : s.callers[i]? = some c)
    (hinside : c.phase.isInside = true) {j : Nat} (hj : j ≠ i) (hholder : s.holder = some j) :
    none = some j :=
  absurd (Option.some.inj (hholder.symm.trans (h.inside i c hc hinside))) hj

/-- A caller is given the ending of its worker. -/
theorem Sound.deliver (h : Sound s) (hc : s.callers[i]? = some c)
    (hworker : c.phase.worker? = some w) {e : Ending} (he : s.ending? w = some e) :
    Sound (s.leave i (.ofEnding e)) := by
  have hinside := Phase.isInside_of_worker? hworker
  refine h.move hc ⟨rfl, List.Subset.refl _, nofun, fun _ => h.leave_others hc hinside, nofun,
    fun _ _ _ hk => hk, fun w' k hk => ?_⟩
  by_cases howner : k.owner = i
  · obtain ⟨rfl, -⟩ := h.eq_of_owner hc hworker hk howner
    obtain ⟨hwork, hclosed⟩ := ending?_eq_some hk he
    exact .inr ⟨howner, .delivered hwork hclosed rfl⟩
  · exact .inl ⟨howner, hk⟩

theorem getElem?_drop (s : Traffic) (w j : Nat) :
    (s.drop w).workers[j]? = s.workers[j]?.map fun k =>
      if w = j then { k with work := k.work.drop } else k := by
  rw [drop, List.getElem?_modify]
  rfl

theorem Sound.abandon (h : Sound s) (hc : s.callers[i]? = some c)
    (hworker : c.phase.worker? = some w) (hoff : s.calledOff c = true) :
    Sound ((s.drop w).leave i (.cancelled Reply.abandonedReason)) := by
  have hinside := Phase.isInside_of_worker? hworker
  obtain ⟨mine, hmine, hown⟩ := h.own i c w hc hworker
  refine h.move hc ⟨rfl, List.Subset.refl _, nofun, fun _ => h.leave_others hc hinside, nofun,
    fun w' k howner hk => ?_, fun w' k hk => ?_⟩
  · -- the call that is taken back is the caller's own, so the others' workers stay as they are
    have hne : w ≠ w' := by
      rintro rfl
      cases hmine.symm.trans hk
      exact howner hown
    exact (getElem?_drop s w w').trans (by rw [hk, Option.map_some, if_neg hne])
  · obtain ⟨k', hk', rfl⟩ := Option.map_eq_some_iff.1 ((getElem?_drop s w w').symm.trans hk)
    by_cases hw : w = w'
    · subst hw
      rw [if_pos rfl]
      cases hmine.symm.trans hk'
      refine .inr ⟨hown, .abandoned ?_ rfl hoff⟩
      cases mine.work <;> exact nofun
    · rw [if_neg hw]
      refine .inl ⟨fun howner => ?_, hk'⟩
      exact hw (h.eq_of_owner hc hworker hk' howner).1.symm

/-- The call of a caller that holds the lock is given to a new worker. -/
theorem Sound.start (h : Sound s) (hc : s.callers[i]? = some c) (hphase : c.phase = .admitted) :
    Sound { s.setPhase i (.looking s.workers.length) with
      workers := s.workers ++ [⟨i, c.request, .idle⟩] } := by
  have hholder : s.holder = some i := h.inside i c hc (by rw [hphase]; rfl)
  refine h.move hc ⟨rfl, List.Subset.refl _, fun _ => hholder, fun _ _ hj => hj, fun w hw => ?_,
    fun w k _ hk => ?_, fun w k hk => ?_⟩
  · cases hw
    exact ⟨_, getElem?_push_eq_some.2 (.inr ⟨rfl, rfl⟩), rfl⟩
  · exact getElem?_push_eq_some.2 (.inl hk)
  · rcases getElem?_push_eq_some.1 hk with hold | ⟨rfl, rfl⟩
    · exact .inl ⟨h.owner_ne hc (by rw [hphase]; rfl) hold, hold⟩
    · exact .inr ⟨rfl, .awaited rfl nofun⟩

theorem Sound.goes (h : Sound s) (hc : s.callers[i]? = some c) (e : Goes s i c s') : Sound s' := by
  have hstay : ∀ j, j ≠ i → s.holder = some j → s.holder = some j := fun _ _ hj => hj
  cases e with
  | refused hphase => exact h.move_alone hc (by rw [hphase]; rfl) rfl nofun hstay
  | queued hphase => exact h.move_alone hc (by rw [hphase]; rfl) rfl nofun hstay
  | admitted hphase hfree =>
    refine h.move_alone hc (by rw [hphase]; rfl) rfl (fun _ => rfl) fun j _ hj => ?_
    cases hfree.symm.trans hj
  | turned hphase =>
    exact h.move_alone hc (by rw [hphase]; rfl) rfl nofun
      fun _ => h.leave_others hc (by rw [hphase]; rfl)
  | started hphase => exact h.start hc hphase
  | abandoned w hphase hoff => exact h.abandon hc (by rw [hphase]; rfl) hoff
  | waits w hphase => exact h.move_with hc (by rw [hphase]; rfl) rfl
  | delivered w e hphase he => exact h.deliver hc (by rw [hphase]; rfl) he
  | looks w hphase => exact h.move_with hc (by rw [hphase]; rfl) rfl

/-! ## Steps of workers, and what comes from outside -/

theorem getElem?_setWork (s : Traffic) (w : Nat) (work : Work) (j : Nat) :
    (s.setWork w work).workers[j]? = s.workers[j]?.map fun k =>
      if w = j then { k with work } else k := by
  rw [setWork, List.getElem?_modify]
  rfl

/-- A worker goes on, and every caller of it stands as well as before. -/
theorem Sound.setWork (h : Sound s) {before work : Work}
    (hw : s.workers[w]?.map (·.work) = some before)
    (hwork : ∀ c, Standing s w before c → Standing s w work c) : Sound (s.setWork w work) := by
  refine ⟨h.inside, fun i c w' hc hworker => ?_, fun w' k hk => ?_⟩
  · obtain ⟨k, hk, howner⟩ := h.own i c w' hc hworker
    refine ⟨_, (getElem?_setWork s w work w').trans (congrArg _ hk), ?_⟩
    split <;> exact howner
  · obtain ⟨k', hk', rfl⟩ := Option.map_eq_some_iff.1 ((getElem?_setWork s w work w').symm.trans hk)
    obtain ⟨c, hc, hstanding⟩ := h.standing w' k' hk'
    by_cases hww : w = w'
    · subst hww
      rw [hk', Option.map_some, Option.some.injEq] at hw
      rw [if_pos rfl]
      exact ⟨c, hc, (hwork c (hw ▸ hstanding)).mono (List.Subset.refl _)⟩
    · rw [if_neg hww]
      exact ⟨c, hc, hstanding.mono (List.Subset.refl _)⟩

theorem Standing.enter (h : Standing s w .idle c) : Standing s w .running c := by
  cases h with
  | awaited hw => exact .awaited hw nofun
  | delivered hwork => cases hwork
  | abandoned hwork => exact absurd rfl hwork

theorem Standing.finish (h : Standing s w .running c) (e : Ending) :
    Standing s w (.ended e) c := by
  cases h with
  | awaited hw => exact .awaited hw nofun
  | delivered hwork => cases hwork
  | abandoned _ hphase hoff => exact .abandoned nofun hphase hoff

theorem Sound.arrive (h : Sound s) (hphase : c.phase = .arriving) :
    Sound { s with callers := s.callers ++ [c] } := by
  refine ⟨fun i d hd hin => ?_, fun i d w hd hw => ?_, fun w k hk => ?_⟩
  · rcases getElem?_push_eq_some.1 hd with hd | ⟨-, rfl⟩
    · exact h.inside i d hd hin
    · rw [hphase] at hin
      cases hin
  · rcases getElem?_push_eq_some.1 hd with hd | ⟨-, rfl⟩
    · exact h.own i d w hd hw
    · rw [hphase] at hw
      cases hw
  · obtain ⟨d, hd, hstanding⟩ := h.standing w k hk
    exact ⟨d, getElem?_push_eq_some.2 (.inl hd), hstanding.mono (List.Subset.refl _)⟩

theorem Sound.fire (h : Sound s) (t : Nat) : Sound { s with fired := t :: s.fired } := by
  refine ⟨h.inside, h.own, fun w k hk => ?_⟩
  obtain ⟨c, hc, hstanding⟩ := h.standing w k hk
  exact ⟨c, hc, hstanding.mono (List.subset_cons_self _ _)⟩

theorem Sound.step (h : Sound s) {a : Action} (e : s.step a = some s') : Sound s' := by
  cases a with
  | arrive b audit token =>
    cases e
    exact h.arrive rfl
  | go i =>
    obtain ⟨c, hc, e⟩ := Option.bind_eq_some_iff.1 e
    exact h.goes hc (goes_of_go e)
  | enter w =>
    obtain ⟨hwork, rfl⟩ := eq_of_enter e
    exact h.setWork hwork fun _ => .enter
  | finish w ending =>
    obtain ⟨hwork, rfl⟩ := eq_of_finish e
    exact h.setWork hwork fun _ hstanding => hstanding.finish ending
  | fire t =>
    cases e
    exact h.fire t

theorem sound_empty : Sound {} := ⟨nofun, nofun, nofun⟩

theorem Sound.reaches (h : Sound s) (e : s.Reaches s') : Sound s' :=
  e.preserves (fun h e => h.step e) h

/-! ## Calls in flight -/

/-- A call is being made for the holder of the lock, or it was left alone. -/
theorem Sound.awaited_or_abandoned (h : Sound s) (hr : s.Running w) :
    s.Awaited w ∨ s.Abandoned w := by
  obtain ⟨k, hk, hwork⟩ := hr
  obtain ⟨c, hc, hstanding⟩ := h.standing w k hk
  rw [hwork] at hstanding
  cases hstanding with
  | awaited hw =>
    exact .inl ⟨k, c, hk, hc, hw, h.inside _ c hc (Phase.isInside_of_worker? hw)⟩
  | delivered hended => cases hended
  | abandoned _ hphase hoff => exact .inr ⟨k, c, hk, hc, hphase, hoff⟩

theorem Awaited.unique {w' : Nat} (h : s.Awaited w) (h' : s.Awaited w') : w = w' := by
  obtain ⟨k, c, -, hc, hw, hholder⟩ := h
  obtain ⟨k', c', -, hc', hw', hholder'⟩ := h'
  -- both are waited for by the holder of the lock, and it waits for one
  have howner : k.owner = k'.owner := Option.some.inj (hholder.symm.trans hholder')
  rw [howner] at hc
  cases hc.symm.trans hc'
  exact Option.some.inj (hw.symm.trans hw')

/-- While the lock is free, the next caller has its call made beside those that go on. -/
theorem Running.joined (hr : s.Running w) (c : Caller) :
    (s.joined c .running).Running w ∧ ∃ w', w' ≠ w ∧ (s.joined c .running).Running w' := by
  obtain ⟨k, hk, hwork⟩ := hr
  have hlt : w < s.workers.length := (List.getElem?_eq_some_iff.1 hk).1
  refine ⟨⟨k, (List.getElem?_append_left hlt).trans hk, hwork⟩, ?_⟩
  exact ⟨s.workers.length, Nat.ne_of_gt hlt, _, List.getElem?_concat_length, rfl⟩

/-- What is in flight at a connection. -/
structure Flights (s : Traffic) : Prop where
  running : ∀ w, s.Running w → s.Awaited w ∨ s.Abandoned w
  awaited : ∀ w w', s.Awaited w → s.Awaited w' → w = w'
  /-- One call is in flight at most while none that was left alone goes on. -/
  single : (∀ w, s.Abandoned w → ¬ s.Running w) →
    ∀ w w', s.Running w → s.Running w' → w = w'
  /-- Beside a call that goes on while the lock is free, the next caller has its call made. -/
  crowded : ∀ w, s.Running w → s.holder = none → ∀ c : Caller,
    c.phase = .looking s.workers.length → s.calledOff c = false →
      s.Reaches (s.joined c .running) ∧ (s.joined c .running).Running w ∧
        ∃ w', w' ≠ w ∧ (s.joined c .running).Running w'

theorem flights_of_reachable (h : s.Reachable) : s.Flights := by
  have hsound : Sound s := sound_empty.reaches h
  constructor
  case running => exact fun _ => hsound.awaited_or_abandoned
  case awaited => exact fun _ _ => Awaited.unique
  case single =>
    intro hnone w w' hw hw'
    have hawaited : ∀ w, s.Running w → s.Awaited w := fun w hw =>
      (hsound.awaited_or_abandoned hw).resolve_right fun ha => hnone w ha hw
    exact (hawaited w hw).unique (hawaited w' hw')
  case crowded =>
    rintro w hw hfree ⟨b, audit, token, phase⟩ rfl hoff
    exact ⟨reaches_joined hfree hoff, hw.joined _⟩

def Sample.batch : Batch := ⟨.javascript, []⟩

/-- A caller whose token has fired has left, and its call goes on. -/
def Sample.lonely : Traffic where
  callers := [⟨Sample.batch, none, some 0, .returned (.cancelled Reply.abandonedReason)⟩]
  workers := [⟨0, Request.ofBatch Sample.batch none, .running⟩]
  fired := [0]

/-- Another caller, whose token has not fired, has its call made as well. -/
def Sample.crowded : Traffic where
  callers := Sample.lonely.callers ++ [⟨Sample.batch, none, some 1, .looking 1⟩]
  workers := Sample.lonely.workers ++ [⟨1, Request.ofBatch Sample.batch none, .running⟩]
  fired := [0]
  holder := some 1

theorem Sample.lonely_reachable : Sample.lonely.Reachable :=
  ⟨[.arrive Sample.batch none (some 0), .go 0, .go 0, .go 0, .enter 0, .fire 0, .go 0], rfl⟩

theorem flights_of_reachable_lonely : Sample.lonely.Reachable ∧ Sample.lonely.Flights :=
  ⟨Sample.lonely_reachable, flights_of_reachable Sample.lonely_reachable⟩

/-- Two calls are in flight, one of them for a caller whose token has not fired. -/
theorem two_running_crowded : Sample.crowded.Reachable ∧ Sample.crowded.Running 0 ∧
    Sample.crowded.Running 1 ∧ Sample.crowded.Awaited 1 ∧ 1 ∉ Sample.crowded.fired := by
  have hjoined : Sample.lonely.Reaches Sample.crowded := reaches_joined rfl rfl
  exact ⟨Sample.lonely_reachable.trans hjoined, ⟨_, rfl, rfl⟩, ⟨_, rfl, rfl⟩,
    ⟨_, _, rfl, rfl, rfl, rfl⟩, by decide⟩

end Traffic

end PerfReview
