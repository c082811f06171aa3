import PerfReview.Proofs.Disk.Home
import PerfReview.Proofs.Run.Course

/-!
# What is logged has no part in a run

Runs that differ in their logs send the same requests and end in the same way, whatever is logged
when a token fires. So a run is the same for a path with its home folder filled in.
-/

namespace PerfReview

variable {σ : Type}

namespace Progress

variable {s : Setup σ} {firing : List Log.Entry} {p p' : Progress σ}

/-- Two runs differ in their logs at most. -/
def Alike (p p' : Progress σ) : Prop := ∃ es, p' = { p with log := es }

theorem Alike.tell (h : Alike p p') (es es' : List Log.Entry) : Alike (p.tell es) (p'.tell es') := by
  obtain ⟨log, rfl⟩ := h
  exact ⟨log ++ es', rfl⟩

theorem Alike.settle (h : Alike p p') (root : String) (b : Batch) (reply : Reply) :
    Alike (p.settle root b reply) (p'.settle root b reply) := by
  obtain ⟨log, rfl⟩ := h
  cases reply with
  | answer text =>
    simp only [Progress.settle, enter, Progress.tell, stop]
    split <;> exact ⟨_, rfl⟩
  | failed reason => exact ⟨_, rfl⟩
  | cancelled reason => exact ⟨_, rfl⟩

theorem Alike.runBatch (h : Alike p p') (root : String) (b : Batch) :
    Alike (p.runBatch s root b) (p'.runBatch { s with firing } root b) := by
  obtain ⟨log, rfl⟩ := h
  by_cases ht : p.token.fired = true
  · simp only [Progress.runBatch, begin, Adapter.invoke, ht, if_true]
    exact Alike.settle ⟨_, rfl⟩ root b _
  · simp only [Progress.runBatch, begin, Adapter.invoke, ht]
    exact Alike.settle ⟨_, rfl⟩ root b _

theorem Alike.pause (h : Alike p p') : Alike (p.pause s) (p'.pause { s with firing }) := by
  obtain ⟨log, rfl⟩ := h
  unfold Progress.pause
  dsimp only
  cases s.waiting.pass p.token s.limits.batchDelay with
  | error f => exact ⟨log, rfl⟩
  | ok fired =>
    cases fired with
    | true => exact ⟨log, rfl⟩
    | false => dsimp only; split <;> exact ⟨_, rfl⟩

theorem Alike.runBatches (h : Alike p p') (root : String) (bs : List Batch) :
    Alike (p.runBatches s root bs) (p'.runBatches { s with firing } root bs) := by
  induction bs generalizing p p' with
  | nil => exact h
  | cons b rest ih =>
    have hbatch : Alike (p.runBatch s root b) (p'.runBatch { s with firing } root b) :=
      h.runBatch root b
    have hpause : Alike ((p.runBatch s root b).pause s)
        ((p'.runBatch { s with firing } root b).pause { s with firing }) := hbatch.pause
    have htoken : p'.token = p.token := by
      obtain ⟨log, rfl⟩ := h
      rfl
    have hstatus : ∀ {q q' : Progress σ}, Alike q q' → q'.status = q.status := by
      rintro q _ ⟨log, rfl⟩
      rfl
    simp only [Progress.runBatches, htoken, hstatus hbatch, hstatus hpause]
    split
    · obtain ⟨log, rfl⟩ := h
      exact ⟨log, rfl⟩
    · split
      · exact hbatch
      · split
        · exact hpause
        · exact ih hpause

theorem Alike.runGroups (h : Alike p p') (root : String) (gs : List (Group × List Batch)) :
    Alike (p.runGroups s root gs) (p'.runGroups { s with firing } root gs) := by
  induction gs generalizing p p' with
  | nil => exact h
  | cons g rest ih =>
    obtain ⟨g, bs⟩ := g
    have hgroup : Alike ((p.tell [groupLog g bs]).runBatches s root bs)
        ((p'.tell [groupLog g bs]).runBatches { s with firing } root bs) :=
      (h.tell _ _).runBatches root bs
    obtain ⟨log, e⟩ := id hgroup
    simp only [Progress.runGroups]
    rw [e]
    split
    · exact ⟨log, rfl⟩
    · exact ih ⟨log, rfl⟩

theorem Alike.finish (h : Alike p p') (start : Amount) :
    Alike (p.finish start) (p'.finish start) := by
  obtain ⟨log, rfl⟩ := h
  obtain ⟨adapter, clock, token, status, result, begun, waits, before⟩ := p
  cases status <;> exact ⟨_, rfl⟩

theorem Alike.outcome (h : Alike p p') : p'.outcome = p.outcome := by
  obtain ⟨log, rfl⟩ := h
  rfl

end Progress

/-- The fault of a run as it is told of a path that is written in another way. -/
def RunFault.shownAs (shown : String) : RunFault → RunFault
  | target f => target (f.shownAs shown)
  | f => f

theorem mapError_shownAs {α : Type} {x : Except RunFault α} (h : ∀ f, x ≠ .error (.target f))
    (shown : String) : x.mapError (RunFault.shownAs shown) = x := by
  cases x with
  | ok r => rfl
  | error f =>
    cases f with
    | target f => exact absurd rfl (h f)
    | digits f => rfl
    | wait f => rfl

/-- The second run is the first, but for its log and for how a missing folder is shown. -/
structure Progress.Retold (shown : String) (p p' : Progress σ) : Prop where
  adapter : p'.adapter = p.adapter
  clock : p'.clock = p.clock
  outcome : p'.outcome = p.outcome.mapError (RunFault.shownAs shown)

/-- A run is the same for a path with its home folder filled in, whatever the firing of the token
logs. -/
theorem Run.analyze_expand {s : Setup σ} {firing : List Log.Entry} {site : Site} {p q : String}
    (hs : site.Homed) (h : site.expand p = .ok q) (clock : Clock) (includes ignores : List String)
    (adapter : Adapter σ) (token : Token) :
    (analyze s clock site p includes ignores adapter token).Retold q
      (analyze { s with firing } clock site q includes ignores adapter token) := by
  have hq := Scan.run_expand hs h ⟨includes, ignores, s.limits.bounds.maxFileSize⟩
  cases hp : Scan.run site p ⟨includes, ignores, s.limits.bounds.maxFileSize⟩ with
  | error f =>
    rw [hp] at hq
    unfold analyze
    rw [hp, hq]
    exact ⟨rfl, rfl, rfl⟩
  | ok scan =>
    rw [hp] at hq
    have hopen : Progress.Alike (opened s clock adapter token scan)
        (opened { s with firing } clock adapter token scan) := ⟨_, rfl⟩
    have hend : Progress.Alike (analyze s clock site p includes ignores adapter token)
        (analyze { s with firing } clock site q includes ignores adapter token) := by
      unfold analyze
      rw [hp, hq]
      exact (hopen.runGroups scan.root (plan s scan).groups).finish clock.seconds
    obtain ⟨log, e⟩ := id hend
    refine ⟨by rw [e], by rw [e], ?_⟩
    rw [mapError_shownAs (outcome_ne_target clock adapter token hp) q]
    exact hend.outcome

end PerfReview
