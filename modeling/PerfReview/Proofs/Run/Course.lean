import PerfReview.Proofs.Plan.Groups
import PerfReview.Proofs.Run.Account

/-!
# The course of a run

A run takes up the batches of its plan in order. `Course s root start bs p` says where it stands
when the batches `bs` are behind it: it has gone through them all, it was cancelled on the way or at
the last call, or it was aborted. One batch and one wait keep this, and so do the batches of a group
and the groups of a plan.
-/

namespace PerfReview

variable {σ : Type}

/-! ## One step at a time -/

namespace Progress

variable {s : Setup σ} {root : String} {b : Batch} {p : Progress σ}

theorem settle_eq (root : String) (b : Batch) (reply : Reply) (p : Progress σ) :
    ∃ status r es, p.settle root b reply = { p with status, result := r, log := es } := by
  cases reply with
  | answer text =>
    simp only [settle, enter, tell, stop]
    split <;> exact ⟨_, _, _, rfl⟩
  | failed reason => exact ⟨_, _, _, rfl⟩
  | cancelled reason => exact ⟨_, _, _, rfl⟩

@[simp] theorem settle_begun (reply : Reply) : (p.settle root b reply).begun = p.begun := by
  obtain ⟨status, r, es, e⟩ := settle_eq root b reply p
  rw [e]

@[simp] theorem settle_adapter (reply : Reply) : (p.settle root b reply).adapter = p.adapter := by
  obtain ⟨status, r, es, e⟩ := settle_eq root b reply p
  rw [e]

@[simp] theorem settle_token (reply : Reply) : (p.settle root b reply).token = p.token := by
  obtain ⟨status, r, es, e⟩ := settle_eq root b reply p
  rw [e]

/-- A batch that is begun with the token unfired is sent, and its reply is taken up. -/
theorem runBatch_eq (s : Setup σ) (root : String) (b : Batch) (ht : p.token.fired = false) :
    ∃ p₁ : Progress σ, p.runBatch s root b = p₁.settle root b
        (.ofEnding (s.oracle.call p.adapter.state (Request.ofBatch b s.audit)).1) ∧
      p₁.begun = p.begun ++ [b] ∧ p₁.status = p.status ∧ p₁.result = p.result.begin b ∧
      p₁.adapter.state = (s.oracle.call p.adapter.state (Request.ofBatch b s.audit)).2 ∧
      p₁.adapter.requests = p.adapter.requests ++ [Request.ofBatch b s.audit] ∧
      p₁.token = if p.adapter.fires s.oracle (Request.ofBatch b s.audit) then p.token.cancel
        else p.token := by
  simp only [runBatch, begin, Adapter.invoke, ht, Bool.false_eq_true, if_false]
  exact ⟨_, rfl, rfl, rfl, rfl, rfl, rfl, rfl⟩

theorem pass_eq (w : Waiting) (t : Token) (seconds : Amount) :
    w.pass t seconds =
      if t.fired = false ∧ w.measured = true ∧ Token.isBeyondClock seconds = true then
        .error .tooLong
      else .ok t.fired := by
  unfold Waiting.pass Token.wait
  cases w.measured <;> cases t.fired <;> simp

/-- A wait lets the run go on, with the token unfired, cancels it, or is too long for the clock. -/
theorem pause_cases (s : Setup σ) (p : Progress σ) :
    ∃ ws, ws = p.waits ++ [s.limits.batchDelay] ∧
      ((p.pause s = { p with waits := ws } ∧ p.token.fired = false ∧
          ¬ (s.waiting.measured = true ∧ Token.isBeyondClock s.limits.batchDelay = true)) ∨
        (∃ t es, p.pause s = { p with token := t, waits := ws, status := .cancelled, log := es } ∧
          t.fired = true ∧ (p.token.fired = true ∨ s.waiting.firing ≠ none)) ∨
        ∃ f, p.pause s = { p with waits := ws, status := .aborted (.wait f) } ∧
          s.waiting.measured = true ∧ Token.isBeyondClock s.limits.batchDelay = true) := by
  refine ⟨_, rfl, ?_⟩
  unfold pause
  dsimp only
  rw [pass_eq]
  by_cases hlong : p.token.fired = false ∧ s.waiting.measured = true ∧
      Token.isBeyondClock s.limits.batchDelay = true
  · rw [if_pos hlong]
    exact .inr (.inr ⟨_, rfl, hlong.2⟩)
  · rw [if_neg hlong]
    cases ht : p.token.fired with
    | true => exact .inr (.inl ⟨p.token, p.log, rfl, ht, .inl rfl⟩)
    | false =>
      dsimp only
      by_cases hfires : s.waiting.firing.any (· ≤ (p.waits ++ [s.limits.batchDelay]).length) = true
      · rw [if_pos hfires]
        refine .inr (.inl ⟨p.token.cancel, _, rfl, rfl, .inr fun hn => ?_⟩)
        rw [hn] at hfires
        cases hfires
      · rw [if_neg hfires]
        exact .inl ⟨rfl, rfl, fun h => hlong ⟨ht, h⟩⟩

end Progress

/-! ## Where a run stands -/

/-- The calls of a run for batches, the first of its plan. -/
def Setup.calls (s : Setup σ) (start : Progress σ) (bs : List Batch) : List Exchange :=
  s.oracle.calls s.audit start.adapter.state 1 bs

/-- The batches have been begun, each with one request, and the calls are entered in the result. -/
structure Accounted (s : Setup σ) (root : String) (start : Progress σ) (bs : List Batch)
    (p : Progress σ) : Prop where
  begun : p.begun = bs
  state : p.adapter.state = s.oracle.after s.audit start.adapter.state bs
  requests : p.adapter.requests = start.adapter.requests ++ bs.map (Request.ofBatch · s.audit)
  result : p.result = (s.calls start bs).foldl (fun r c => r.take root c) start.result
  /-- Every answer has been read to its end. -/
  readable : ∀ c ∈ s.calls start bs, ∀ a ∈ c.response? root, a.fault = none
  /-- What can have fired the token. -/
  token : p.token.fired = true → start.token.fired = true ∨
    s.waiting.firing ≠ none ∨ ∃ c ∈ s.calls start bs, c.fires = true

/-- Where a run stands with the batches `bs` behind it. -/
inductive Course (s : Setup σ) (root : String) (start : Progress σ) (bs : List Batch)
    (p : Progress σ) : Prop where
  | through : p.status = .going → Accounted s root start bs p →
      (∀ c ∈ s.calls start bs, c.ending.isOpen = false) → Course s root start bs p
  | cancelled (ts : List Batch) : p.status = .cancelled → p.token.fired = true → ts <+: bs →
      Accounted s root start ts p →
      (∀ c ∈ (s.calls start ts).dropLast, c.ending.isOpen = false) →
      (ts.length < bs.length ∨ ∃ c ∈ (s.calls start ts).getLast?, c.ending.isOpen = true) →
      Course s root start bs p
  | digits (ts : List Batch) {c : Exchange} {a : Response} {f : Number.IntFault} :
      p.status = .aborted (.digits f) → ts <+: bs → c ∈ s.calls start ts →
      c.response? root = some a → a.fault = some f → Course s root start bs p
  | wait {f : TokenFault} : p.status = .aborted (.wait f) → Course s root start bs p

section
variable {s : Setup σ} {root : String} {start p : Progress σ} {b : Batch} {bs cs : List Batch}

/-- A run that has ended stands where it stands with further batches before it. -/
theorem Course.extend (h : Course s root start bs p) (hs : p.status ≠ .going) (cs : List Batch) :
    Course s root start (bs ++ cs) p := by
  cases h with
  | through hg => exact absurd hg hs
  | cancelled ts hc hf hpre hacc hclosed hleft =>
    refine .cancelled ts hc hf (hpre.trans (List.prefix_append bs cs)) hacc hclosed ?_
    exact hleft.imp_left fun hl => by rw [List.length_append]; omega
  | digits ts hd hpre => exact .digits ts hd (hpre.trans (List.prefix_append bs cs)) ‹_› ‹_› ‹_›
  | wait hw => exact .wait hw

/-- A run that goes on has gone through its batches. -/
theorem Course.of_going (h : Course s root start bs p) (hg : p.status = .going) :
    Accounted s root start bs p ∧ ∀ c ∈ s.calls start bs, c.ending.isOpen = false := by
  cases h with
  | through _ hacc hclosed => exact ⟨hacc, hclosed⟩
  | cancelled _ hc => rw [hg] at hc; cases hc
  | digits _ hd => rw [hg] at hd; cases hd
  | wait hw => rw [hg] at hw; cases hw

def Progress.nextCall (s : Setup σ) (p : Progress σ) (b : Batch) : Exchange where
  number := p.begun.length + 1
  batch := b
  ending := (s.oracle.call p.adapter.state (Request.ofBatch b s.audit)).1
  fires := p.adapter.fires s.oracle (Request.ofBatch b s.audit)

theorem Accounted.calls_snoc (h : Accounted s root start bs p) :
    s.calls start (bs ++ [b]) = s.calls start bs ++ [p.nextCall s b] := by
  rw [Setup.calls, Oracle.calls_append, Nat.add_comm 1 bs.length, ← h.state, ← h.begun]
  rfl

/-- What the reply to a call does to a run that has begun its batch. -/
theorem Progress.settle_cases (root : String) {c : Exchange} {r : Result} (hc : c.batch = b)
    (hn : c.number = p.begun.length) (hr : p.result = r.begin b) :
    (c.ending.isOpen = true ∧ (p.settle root b (.ofEnding c.ending)).status = .cancelled ∧
      (p.settle root b (.ofEnding c.ending)).result = r.take root c ∧ c.response? root = none) ∨
    (c.ending.isOpen = false ∧ (p.settle root b (.ofEnding c.ending)).status = p.status ∧
      (p.settle root b (.ofEnding c.ending)).result = r.take root c ∧
      ∀ a ∈ c.response? root, a.fault = none) ∨
    ∃ a f, c.response? root = some a ∧ a.fault = some f ∧
      (p.settle root b (.ofEnding c.ending)).status = .aborted (.digits f) := by
  subst hc
  unfold Result.take
  rcases c.ending.reply_cases with ⟨text, ha, hb, ho, e⟩ | ⟨reason, ha, hb, ho, e⟩ |
    ⟨reason, ha, hb, ho, e⟩
  · -- an answer
    have hresp : c.response? root =
        some (Response.read (Index.ofFiles c.batch.files (some root)) text) := by
      rw [Exchange.response?, ha]
      rfl
    rw [e, Progress.settle, Progress.enter]
    generalize Response.read (Index.ofFiles c.batch.files (some root)) text = a at hresp ⊢
    cases hf : a.fault with
    | some f => exact .inr (.inr ⟨a, f, hresp, hf, rfl⟩)
    | none =>
      refine .inr (.inl ⟨ho, rfl, ?_, ?_⟩)
      · simp [hresp, Progress.tell, hr]
      · intro a' ha'
        rw [hresp] at ha'
        cases ha'
        exact hf
  · -- no answer
    have hresp : c.response? root = none := by rw [Exchange.response?, ha]; rfl
    rw [e]
    refine .inr (.inl ⟨ho, rfl, ?_, ?_⟩)
    · simp [hresp, Progress.settle, Progress.fail, Progress.tell, hr, Exchange.failure?, hb, hn]
    · simp [hresp]
  · -- the call is left open
    have hresp : c.response? root = none := by rw [Exchange.response?, ha]; rfl
    rw [e]
    refine .inl ⟨ho, rfl, ?_, hresp⟩
    simp [hresp, Progress.settle, Progress.stop, hr, Exchange.failure?, hb]

/-! ## Steps -/

/-- The account with one more batch, once its call is entered in the result. -/
theorem Accounted.snoc (h : Accounted s root start bs p) (ht : p.token.fired = false)
    (hres : (p.runBatch s root b).result = p.result.take root (p.nextCall s b))
    (hread : ∀ a ∈ (p.nextCall s b).response? root, a.fault = none) :
    Accounted s root start (bs ++ [b]) (p.runBatch s root b) := by
  obtain ⟨p₁, e, hbegun, -, -, hstate, hrequests, htoken⟩ := Progress.runBatch_eq s root b ht
  have hcalls := h.calls_snoc (b := b)
  refine ⟨?_, ?_, ?_, ?_, ?_, ?_⟩
  · rw [e, Progress.settle_begun, hbegun, h.begun]
  · rw [e, Progress.settle_adapter, hstate, h.state, Oracle.after, Oracle.after,
      List.foldl_append]
    rfl
  · rw [e, Progress.settle_adapter, hrequests, h.requests, List.map_append, List.append_assoc]
    rfl
  · rw [hres, hcalls, List.foldl_append, ← h.result]
    rfl
  · rw [hcalls]
    exact List.forall_mem_append.2 ⟨h.readable, List.forall_mem_singleton.2 hread⟩
  · rw [e, Progress.settle_token, htoken, hcalls]
    intro hfired
    split at hfired
    · rename_i hfires
      exact .inr (.inr ⟨_, List.mem_append_right _ (List.mem_singleton_self _), hfires⟩)
    · rw [ht] at hfired
      cases hfired

theorem Accounted.runBatch (h : Accounted s root start bs p)
    (hclosed : ∀ c ∈ s.calls start bs, c.ending.isOpen = false) (hg : p.status = .going)
    (ht : p.token.fired = false) :
    Course s root start (bs ++ [b]) (p.runBatch s root b) := by
  obtain ⟨p₁, e, hbegun, hstatus, hresult, -, -, htoken⟩ := Progress.runBatch_eq s root b ht
  have hcalls := h.calls_snoc (b := b)
  have hn : (p.nextCall s b).number = p₁.begun.length := by
    rw [hbegun, List.length_append]
    rfl
  have hcases := Progress.settle_cases root (c := p.nextCall s b) rfl hn hresult
  simp only [Progress.nextCall, ← e] at hcases
  rcases hcases with
    ⟨ho, hst, hres, hresp⟩ | ⟨ho, hst, hres, hread⟩ | ⟨a, f, hresp, hf, hst⟩
  · -- the call is left open
    have hfires : (p.nextCall s b).fires = true := by
      simp [Progress.nextCall, Adapter.fires, ho]
    have hacc := h.snoc ht hres (by simp [Progress.nextCall, hresp])
    refine .cancelled (bs ++ [b]) hst ?_ List.prefix_rfl hacc ?_ (.inr ?_)
    · rw [e, Progress.settle_token, htoken]
      exact congrArg Token.fired (if_pos hfires)
    · rw [hcalls, List.dropLast_concat]
      exact hclosed
    · exact ⟨_, by rw [hcalls, List.getLast?_concat]; rfl, ho⟩
  · refine .through (hst.trans (hstatus.trans hg)) (h.snoc ht hres hread) ?_
    rw [hcalls]
    exact List.forall_mem_append.2 ⟨hclosed, List.forall_mem_singleton.2 ho⟩
  · refine .digits (bs ++ [b]) (c := p.nextCall s b) hst List.prefix_rfl ?_ hresp hf
    rw [hcalls]
    exact List.mem_append_right _ (List.mem_singleton_self _)

theorem Accounted.pause (h : Accounted s root start bs p)
    (hclosed : ∀ c ∈ s.calls start bs, c.ending.isOpen = false) (hg : p.status = .going)
    (hcs : cs ≠ []) :
    ((p.pause s).status = .going ∧ Accounted s root start bs (p.pause s)) ∨
    ((p.pause s).status ≠ .going ∧ Course s root start (bs ++ cs) (p.pause s)) := by
  have hleft : bs.length < (bs ++ cs).length := by
    have := List.length_pos_iff.2 hcs
    rw [List.length_append]
    omega
  obtain ⟨ws, -, ⟨e, ht, -⟩ | ⟨t, es, e, ht, hcause⟩ | ⟨f, e, -⟩⟩ := p.pause_cases s
  · rw [e]
    refine .inl ⟨hg, h.begun, h.state, h.requests, h.result, h.readable, fun hf => ?_⟩
    rw [ht] at hf
    cases hf
  · rw [e]
    refine .inr ⟨by simp, .cancelled bs rfl ht (List.prefix_append bs cs)
      ⟨h.begun, h.state, h.requests, h.result, h.readable, fun _ => ?_⟩
      (fun c hc => hclosed c (List.dropLast_subset _ hc)) (.inl hleft)⟩
    exact hcause.elim h.token fun hn => .inr (.inl hn)
  · rw [e]
    exact .inr ⟨by simp, .wait rfl⟩

/-! ## Runs -/

theorem Accounted.runBatches (h : Accounted s root start bs p)
    (hclosed : ∀ c ∈ s.calls start bs, c.ending.isOpen = false) (hg : p.status = .going)
    (cs : List Batch) : Course s root start (bs ++ cs) (p.runBatches s root cs) := by
  induction cs generalizing bs p with
  | nil =>
    rw [List.append_nil]
    exact .through hg h hclosed
  | cons b cs ih =>
    rw [Progress.runBatches]
    split
    · rename_i ht
      refine .cancelled bs rfl ht (List.prefix_append bs _)
        ⟨h.begun, h.state, h.requests, h.result, h.readable, h.token⟩
        (fun c hc => hclosed c (List.dropLast_subset _ hc)) (.inl (by simp))
    · rename_i ht
      have hstep : Course s root start (bs ++ [b]) (p.runBatch s root b) :=
        h.runBatch hclosed hg (by simpa using ht)
      have hassoc : bs ++ b :: cs = bs ++ [b] ++ cs := by simp
      rw [hassoc]
      simp only
      by_cases hs : (p.runBatch s root b).status = .going
      · obtain ⟨hacc, hclosed'⟩ := hstep.of_going hs
        cases cs with
        | nil => simpa [hs] using Course.through hs hacc hclosed'
        | cons b' cs =>
          simp only [hs, ne_eq, not_true_eq_false, List.isEmpty_cons, Bool.false_eq_true,
            if_false, decide_false, Bool.or_self]
          rcases hacc.pause hclosed' hs (List.cons_ne_nil b' cs) with ⟨hp, hacc'⟩ | ⟨hp, hc⟩
          · rw [if_neg (not_not_intro hp)]
            exact ih hacc' hclosed' hp
          · rw [if_pos hp]
            exact hc
      · rw [if_pos (by simp [hs])]
        exact hstep.extend hs cs

/-- The result of a run that started empty accounts for the calls. -/
theorem Accounted.account (h : Accounted s root start bs p) (h₀ : Account root [] start.result) :
    Account root (s.calls start bs) p.result := by
  rw [h.result]
  exact h₀.foldl (s.calls start bs)

theorem Accounted.frame (h : Accounted s root start bs p) :
    p.result.skipped = start.result.skipped ∧ p.result.batchCount = start.result.batchCount ∧
      p.result.target = start.result.target := by
  rw [h.result]
  exact Result.foldl_take_frame root (s.calls start bs) start.result

theorem Accounted.batchCount (h : Accounted s root start bs p) :
    p.result.batchCount = start.result.batchCount := h.frame.2.1

theorem Accounted.tell (h : Accounted s root start bs p) (es : List Log.Entry) :
    Accounted s root start bs (p.tell es) :=
  ⟨h.begun, h.state, h.requests, h.result, h.readable, h.token⟩

theorem Accounted.runGroups (h : Accounted s root start bs p)
    (hclosed : ∀ c ∈ s.calls start bs, c.ending.isOpen = false) (hg : p.status = .going)
    (gs : List (Group × List Batch)) :
    Course s root start (bs ++ gs.flatMap (·.2)) (p.runGroups s root gs) := by
  induction gs generalizing bs p with
  | nil =>
    rw [List.flatMap_nil, List.append_nil]
    exact .through hg h hclosed
  | cons g gs ih =>
    obtain ⟨g, cs⟩ := g
    have hgroup := (h.tell [Progress.groupLog g cs]).runBatches hclosed hg cs
    rw [List.flatMap_cons, ← List.append_assoc, Progress.runGroups]
    simp only
    by_cases hs : ((p.tell [Progress.groupLog g cs]).runBatches s root cs).status = .going
    · rw [if_neg (not_not_intro hs)]
      obtain ⟨hacc, hclosed'⟩ := hgroup.of_going hs
      exact ih hacc hclosed' hs
    · rw [if_pos hs]
      exact hgroup.extend hs _

end

/-! ## The end of a run -/

namespace Progress

variable {p : Progress σ} {start : Amount}

/-- The end of a run bears on the result, the clock and the log alone. -/
theorem finish_eq (start : Amount) (p : Progress σ) :
    ∃ r clock es, p.finish start = { p with result := r, clock, log := es } := by
  unfold finish
  split
  · exact ⟨p.result, p.clock, p.log, rfl⟩
  · dsimp only
    split <;> exact ⟨_, _, _, rfl⟩

@[simp] theorem finish_adapter : (p.finish start).adapter = p.adapter := by
  obtain ⟨r, clock, es, e⟩ := finish_eq start p
  rw [e]

/-- A run that was not aborted has a result, with the findings so far. -/
theorem outcome_finish (start : Amount) (h : ∀ f, p.status ≠ .aborted f) :
    ∃ d, (p.finish start).outcome =
      .ok { p.result with cancelled := decide (p.status = .cancelled), duration := d } := by
  refine ⟨p.clock.seconds.minus start, ?_⟩
  unfold finish
  cases hs : p.status with
  | aborted f => exact absurd hs (h f)
  | going => simp [outcome, tell, hs]
  | cancelled => simp [outcome, tell, hs]

theorem outcome_finish_of_aborted {f : RunFault} (h : p.status = .aborted f) :
    (p.finish start).outcome = .error f := by
  unfold finish outcome
  simp only [h]

/-- A run with a result was not aborted, and its result is what it found so far. -/
theorem eq_of_outcome_finish {r : Result} (h : (p.finish start).outcome = .ok r) :
    (∀ f, p.status ≠ .aborted f) ∧
      ∃ d, r = { p.result with cancelled := decide (p.status = .cancelled), duration := d } := by
  have hf : ∀ f, p.status ≠ .aborted f := by
    intro f hf
    rw [outcome_finish_of_aborted hf] at h
    cases h
  obtain ⟨d, hd⟩ := outcome_finish start hf
  rw [hd] at h
  exact ⟨hf, d, (Except.ok.inj h).symm⟩

end Progress

/-- A run with a result accounts for the batches that it began with. -/
theorem Course.accounted_of_outcome {s : Setup σ} {root : String} {start p : Progress σ}
    {bs : List Batch} {began : Amount} {r : Result} (h : Course s root start bs p)
    (hr : (p.finish began).outcome = .ok r) : ∃ ts, ts <+: bs ∧ Accounted s root start ts p ∧
      ∃ c d, r = { p.result with cancelled := c, duration := d } := by
  obtain ⟨hf, d, rfl⟩ := Progress.eq_of_outcome_finish hr
  cases h with
  | through _ hacc => exact ⟨bs, List.prefix_rfl, hacc, _, d, rfl⟩
  | cancelled _ _ _ hpre hacc => exact ⟨_, hpre, hacc, _, d, rfl⟩
  | digits _ hd => exact absurd hd (hf _)
  | wait hw => exact absurd hw (hf _)

/-- A run with a result that was not cancelled has gone through its batches. -/
theorem Course.going_of_outcome {s : Setup σ} {root : String} {start p : Progress σ}
    {bs : List Batch} {began : Amount} {r : Result} (h : Course s root start bs p)
    (hr : (p.finish began).outcome = .ok r) (hc : r.cancelled = false) :
    p.status = .going ∧ ∃ d, r = { p.result with cancelled := false, duration := d } := by
  obtain ⟨hf, d, rfl⟩ := Progress.eq_of_outcome_finish hr
  have hnot : decide (p.status = .cancelled) = false := hc
  cases h with
  | through hg => exact ⟨hg, d, by rw [hnot]⟩
  | cancelled _ hs => exact absurd hs (of_decide_eq_false hnot)
  | digits _ hd => exact absurd hd (hf _)
  | wait hw => exact absurd hw (hf _)

namespace Run

variable {s : Setup σ} {site : Site} {target : String} {includes ignores : List String}

def plan (s : Setup σ) (scan : Scan) : Plan :=
  Plan.ofUsable s.limits.bounds (prioritize scan.files)

theorem make?_eq_plan (s : Setup σ) (scan : Scan) :
    Plan.make? s.limits.bounds (prioritize scan.files) = some (plan s scan) :=
  if_pos s.limits.bounds_usable

/-- The run up to the first batch. -/
def opened (s : Setup σ) (clock : Clock) (adapter : Adapter σ) (token : Token) (scan : Scan) :
    Progress σ :=
  let p : Progress σ :=
    { adapter, token, clock := clock.looked, log := [Progress.stageLog .idle .discovering] }
  { p with result := opening scan (plan s scan) p.clock.now }.tell
    (planningLog s.limits scan (prioritize scan.files) (plan s scan))

theorem opened_account (s : Setup σ) (clock : Clock) (adapter : Adapter σ) (token : Token)
    (scan : Scan) (root : String) : Account root [] (opened s clock adapter token scan).result := by
  refine ⟨rfl, rfl, fun v => ?_, rfl⟩
  cases v <;> rfl

theorem analyze_of_error {f : TargetFault}
    (h : Scan.run site target ⟨includes, ignores, s.limits.bounds.maxFileSize⟩ = .error f)
    (clock : Clock) (adapter : Adapter σ) (token : Token) :
    let p := Run.analyze s clock site target includes ignores adapter token
    p.adapter = adapter ∧ p.clock = clock.looked ∧ p.outcome = .error (.target f) := by
  unfold analyze
  rw [h]
  exact ⟨rfl, rfl, rfl⟩

theorem exists_scan_of_outcome {clock : Clock} {adapter : Adapter σ} {token : Token} {r : Result}
    (h : (Run.analyze s clock site target includes ignores adapter token).outcome = .ok r) :
    ∃ scan, Scan.run site target ⟨includes, ignores, s.limits.bounds.maxFileSize⟩ = .ok scan := by
  cases hscan : Scan.run site target ⟨includes, ignores, s.limits.bounds.maxFileSize⟩ with
  | ok scan => exact ⟨scan, rfl⟩
  | error f => cases (analyze_of_error hscan clock adapter token).2.2.symm.trans h

/-- A run over a folder that could be scanned is the course of its groups and an end. -/
theorem analyze_course (clock : Clock) (adapter : Adapter σ) (token : Token) {scan : Scan}
    (h : Scan.run site target ⟨includes, ignores, s.limits.bounds.maxFileSize⟩ = .ok scan) :
    ∃ p, Run.analyze s clock site target includes ignores adapter token = p.finish clock.seconds ∧
      p = (opened s clock adapter token scan).runGroups s scan.root (plan s scan).groups ∧
      Course s scan.root (opened s clock adapter token scan) (plan s scan).batches p := by
  refine ⟨_, ?_, rfl, ?_⟩
  · unfold analyze
    rw [h]
    rfl
  · have hopen : Accounted s scan.root (opened s clock adapter token scan) []
        (opened s clock adapter token scan) :=
      ⟨rfl, rfl, by simp, rfl, by simp [Setup.calls, Oracle.calls], .inl⟩
    have hcourse := hopen.runGroups (by simp [Setup.calls, Oracle.calls]) rfl (plan s scan).groups
    rwa [List.nil_append, plan, Plan.flatMap_groups] at hcourse

/-- A run over a folder that could be scanned ends by an answer or a wait alone. -/
theorem outcome_ne_target (clock : Clock) (adapter : Adapter σ) (token : Token) {scan : Scan}
    (h : Scan.run site target ⟨includes, ignores, s.limits.bounds.maxFileSize⟩ = .ok scan)
    (f : TargetFault) :
    (Run.analyze s clock site target includes ignores adapter token).outcome ≠
      .error (.target f) := by
  intro he
  obtain ⟨p, e, -, hcourse⟩ := Run.analyze_course clock adapter token h
  rw [e] at he
  have hended : ∀ g, p.status = .aborted g → g = .target f := fun g hg => by
    rw [Progress.outcome_finish_of_aborted hg] at he
    exact Except.error.inj he
  have hgone : (∀ g, p.status ≠ .aborted g) → False := fun hg => by
    obtain ⟨d, hd⟩ := p.outcome_finish clock.seconds hg
    rw [hd] at he
    cases he
  cases hcourse with
  | through hs => exact hgone (by simp [hs])
  | cancelled _ hs => exact hgone (by simp [hs])
  | digits _ hs => cases hended _ hs
  | wait hs => cases hended _ hs

/-- A run that finds no folder leaves the oracle as it is. -/
theorem adapter_of_target {clock : Clock} {adapter : Adapter σ} {token : Token} {f : TargetFault}
    (h : (Run.analyze s clock site target includes ignores adapter token).outcome =
      .error (.target f)) :
    (Run.analyze s clock site target includes ignores adapter token).adapter = adapter := by
  cases hscan : Scan.run site target ⟨includes, ignores, s.limits.bounds.maxFileSize⟩ with
  | error f => exact (analyze_of_error hscan clock adapter token).1
  | ok scan => exact absurd h (outcome_ne_target clock adapter token hscan f)

end Run

end PerfReview
