import PerfReview.Proofs.Response.Readable
import PerfReview.Proofs.Run.Trace

/-!
# Runs that nobody calls off

A run that nobody calls off goes through its whole plan exactly if every answer can be read to its
end, no call fails by a time-out, and no wait is longer than the clock can measure. An answer with a
line number of too many digits ends it without a result.
-/

namespace PerfReview

variable {σ : Type}

/-- Neither a wait nor an outsider fires the token of a run, and every call ends. -/
structure Setup.Uncancelled (s : Setup σ) : Prop where
  waits : s.waiting.firing = none
  calls : ∀ st r, s.oracle.interrupts st r = false
  answers : ∀ st r, (s.oracle.call st r).1 ≠ .silent

/-- The call did not fail by a time-out, and its answer, if there is one, is readable. -/
def Exchange.Sound (c : Exchange) : Prop :=
  c.ending ≠ .timedOut ∧ ∀ text, c.ending.answer? = some text → Response.Readable text

/-! ## Calls -/

theorem Oracle.exists_of_mem_calls {o : Oracle σ} {audit : Option Audit} {st : σ} {n : Nat}
    {bs : List Batch} {c : Exchange} (h : c ∈ o.calls audit st n bs) :
    ∃ st r, c.ending = (o.call st r).1 ∧ c.fires = (c.ending.isOpen || o.interrupts st r) := by
  induction bs generalizing st n with
  | nil => cases h
  | cons b bs ih =>
    rcases List.mem_cons.1 h with rfl | h
    · exact ⟨st, Request.ofBatch b audit, rfl, rfl⟩
    · exact ih h

theorem Setup.calls_subset {s : Setup σ} {start : Progress σ} {ts bs : List Batch} (h : ts <+: bs) :
    s.calls start ts ⊆ s.calls start bs := by
  obtain ⟨cs, rfl⟩ := h
  rw [Setup.calls, Setup.calls, Oracle.calls_append]
  exact List.subset_append_left _ _

theorem Exchange.readable_iff {c : Exchange} {root : String} :
    (∀ a ∈ c.response? root, a.fault = none) ↔
      ∀ text, c.ending.answer? = some text → Response.Readable text := by
  rw [Exchange.response?]
  cases c.ending.answer? with
  | none => simp
  | some text => simp [Response.read_fault_eq_none_iff]

section
variable {s : Setup σ} {root : String} {start p : Progress σ} {bs : List Batch}

theorem Setup.Uncancelled.isOpen_iff (hs : s.Uncancelled) {c : Exchange}
    (hc : c ∈ s.calls start bs) : c.ending.isOpen = true ↔ c.ending = .timedOut := by
  obtain ⟨st, r, he, -⟩ := Oracle.exists_of_mem_calls hc
  have hsilent := hs.answers st r
  rw [← he] at hsilent
  cases hend : c.ending with
  | silent => exact absurd hend hsilent
  | _ => simp [Ending.isOpen]

theorem Setup.Uncancelled.fires_eq (hs : s.Uncancelled) {c : Exchange} (hc : c ∈ s.calls start bs) :
    c.fires = c.ending.isOpen := by
  obtain ⟨st, r, -, hf⟩ := Oracle.exists_of_mem_calls hc
  rw [hf, hs.calls, Bool.or_false]

/-! ## The calls of a run that goes on -/

theorem Course.sound_of_going (h : Course s root start bs p) (hg : p.status = .going) :
    ∀ c ∈ s.calls start bs, c.Sound := by
  obtain ⟨hacc, hclosed⟩ := h.of_going hg
  intro c hc
  refine ⟨fun e => ?_, Exchange.readable_iff.1 (hacc.readable c hc)⟩
  have hopen := hclosed c hc
  rw [e] at hopen
  cases hopen

/-- Without a time-out a run that nobody calls off is not cancelled. -/
theorem Course.not_cancelled (h : Course s root start bs p) (hs : s.Uncancelled)
    (ht : start.token.fired = false) (hc : ∀ c ∈ s.calls start bs, c.ending ≠ .timedOut) :
    p.status ≠ .cancelled := by
  intro hcancelled
  cases h with
  | through hg => rw [hg] at hcancelled; cases hcancelled
  | digits _ hd => rw [hd] at hcancelled; cases hcancelled
  | wait hw => rw [hw] at hcancelled; cases hcancelled
  | cancelled _ _ hfired hpre hacc =>
    rcases hacc.token hfired with hstart | hn | ⟨c, hmem, hfires⟩
    · rw [ht] at hstart
      cases hstart
    · exact hn hs.waits
    · rw [hs.fires_eq hmem, hs.isOpen_iff hmem] at hfires
      exact hc c (Setup.calls_subset hpre hmem) hfires

/-- A run that nobody calls off and whose calls are sound goes on, or is aborted by a wait. -/
theorem Course.going_or_wait (h : Course s root start bs p) (hs : s.Uncancelled)
    (ht : start.token.fired = false) (hc : ∀ c ∈ s.calls start bs, c.Sound) :
    p.status = .going ∨ ∃ f, p.status = .aborted (.wait f) := by
  have hnot := h.not_cancelled hs ht fun c hmem => (hc c hmem).1
  cases h with
  | through hg => exact .inl hg
  | cancelled _ hcancelled => exact absurd hcancelled hnot
  | digits ts _ hpre hmem hresp hf =>
    have hread := Exchange.readable_iff.2 (hc _ (Setup.calls_subset hpre hmem)).2 _ hresp
    rw [hf] at hread
    cases hread
  | wait hw => exact .inr ⟨_, hw⟩

end

/-! ## Waits -/

namespace Progress

variable {s : Setup σ} {root : String} {p : Progress σ} {b : Batch} {bs : List Batch}
  {f : TokenFault}

theorem settle_status (reply : Reply) : (p.settle root b reply).status = p.status ∨
    (p.settle root b reply).status = .cancelled ∨
    ∃ f, (p.settle root b reply).status = .aborted (.digits f) := by
  cases reply with
  | answer text =>
    rw [settle, enter]
    cases (Response.read (Index.ofFiles b.files (some root)) text).fault with
    | none => exact .inl rfl
    | some f => exact .inr (.inr ⟨f, rfl⟩)
  | failed reason => exact .inl rfl
  | cancelled reason => exact .inr (.inl rfl)

theorem runBatch_status_ne_wait (hg : p.status = .going) :
    (p.runBatch s root b).status ≠ .aborted (.wait f) := by
  intro hw
  rw [runBatch] at hw
  rcases settle_status (p := tell _ _) _ with h | h | ⟨f', h⟩
  · rw [h] at hw
    change p.status = _ at hw
    rw [hg] at hw
    cases hw
  · rw [h] at hw
    cases hw
  · rw [h] at hw
    cases hw

theorem pause_eq_wait (hg : p.status = .going) (h : (p.pause s).status = .aborted (.wait f)) :
    s.waiting.measured = true ∧ Token.isBeyondClock s.limits.batchDelay = true := by
  obtain ⟨ws, -, ⟨e, -⟩ | ⟨t, es, e, -⟩ | ⟨f', -, hm, hb⟩⟩ := p.pause_cases s
  · rw [e, hg] at h
    cases h
  · rw [e] at h
    cases h
  · exact ⟨hm, hb⟩

theorem pause_ne_going (hm : s.waiting.measured = true)
    (hb : Token.isBeyondClock s.limits.batchDelay = true) : (p.pause s).status ≠ .going := by
  obtain ⟨ws, -, ⟨-, -, hn⟩ | ⟨t, es, e, -⟩ | ⟨f', e, -⟩⟩ := p.pause_cases s
  · exact absurd ⟨hm, hb⟩ hn
  · simp [e]
  · simp [e]

/-- A run is aborted by a wait only between two batches of a group. -/
theorem runBatches_eq_wait (hg : p.status = .going)
    (h : (p.runBatches s root bs).status = .aborted (.wait f)) :
    s.waiting.measured = true ∧ Token.isBeyondClock s.limits.batchDelay = true ∧ 2 ≤ bs.length := by
  induction bs generalizing p with
  | nil =>
    rw [runBatches, hg] at h
    cases h
  | cons b bs ih =>
    rw [runBatches] at h
    split at h
    · cases h
    · dsimp only at h
      split at h
      · exact absurd h (runBatch_status_ne_wait hg)
      · rename_i hgo
        simp only [Bool.or_eq_true, decide_eq_true_eq, not_or, Decidable.not_not] at hgo
        have hlen : 2 ≤ (b :: bs).length := by
          cases bs with
          | nil => exact absurd rfl hgo.2
          | cons b' bs => simp
        split at h
        · obtain ⟨hm, hb⟩ := pause_eq_wait hgo.1 h
          exact ⟨hm, hb, hlen⟩
        · rename_i hp
          obtain ⟨hm, hb, -⟩ := ih (Decidable.not_not.1 hp) h
          exact ⟨hm, hb, hlen⟩

theorem runBatches_ne_going (hm : s.waiting.measured = true)
    (hb : Token.isBeyondClock s.limits.batchDelay = true) (hbs : 2 ≤ bs.length) :
    (p.runBatches s root bs).status ≠ .going := by
  match bs, hbs with
  | b :: b' :: bs, _ =>
    rw [runBatches]
    split
    · simp [stop]
    · dsimp only
      split
      · rename_i hgo
        simpa using hgo
      · rw [if_pos (pause_ne_going hm hb)]
        exact pause_ne_going hm hb

theorem runGroups_eq_wait {gs : List (Group × List Batch)} (hg : p.status = .going)
    (h : (p.runGroups s root gs).status = .aborted (.wait f)) :
    s.waiting.measured = true ∧ Token.isBeyondClock s.limits.batchDelay = true ∧
      ∃ g ∈ gs, 2 ≤ g.2.length := by
  induction gs generalizing p with
  | nil =>
    rw [runGroups, hg] at h
    cases h
  | cons g gs ih =>
    obtain ⟨g, bs⟩ := g
    rw [runGroups] at h
    split at h
    · obtain ⟨hm, hb, hlen⟩ := runBatches_eq_wait (p := p.tell [groupLog g bs]) hg h
      exact ⟨hm, hb, _, List.mem_cons_self, hlen⟩
    · rename_i hgo
      obtain ⟨hm, hb, g', hg', hlen⟩ := ih (Decidable.not_not.1 hgo) h
      exact ⟨hm, hb, g', List.mem_cons_of_mem _ hg', hlen⟩

theorem runGroups_ne_going {gs : List (Group × List Batch)} (hm : s.waiting.measured = true)
    (hb : Token.isBeyondClock s.limits.batchDelay = true) (hgs : ∃ g ∈ gs, 2 ≤ g.2.length) :
    (p.runGroups s root gs).status ≠ .going := by
  induction gs generalizing p with
  | nil =>
    obtain ⟨g, hg, -⟩ := hgs
    cases hg
  | cons g gs ih =>
    obtain ⟨g, bs⟩ := g
    rw [runGroups]
    split
    · assumption
    · rename_i hgo
      refine ih ?_
      obtain ⟨g', hg', hlen⟩ := hgs
      rcases List.mem_cons.1 hg' with rfl | hg'
      · exact absurd (Decidable.not_not.1 hgo) (runBatches_ne_going hm hb hlen)
      · exact ⟨g', hg', hlen⟩

end Progress

/-! ## Whole runs -/

/-- A run that nobody calls off goes through its batches exactly if its calls are sound and no wait
is too long. -/
theorem Run.going_iff {s : Setup σ} {clock : Clock} {adapter : Adapter σ} {token : Token}
    {scan : Scan} (hs : s.Uncancelled) (ht : token.fired = false) {p : Progress σ}
    (hp : p = (Run.opened s clock adapter token scan).runGroups s scan.root
      (Run.plan s scan).groups)
    (h : Course s scan.root (Run.opened s clock adapter token scan) (Run.plan s scan).batches p) :
    p.status = .going ↔
      (∀ c ∈ s.oracle.calls s.audit adapter.state 1 (Run.plan s scan).batches, c.Sound) ∧
      (s.waiting.measured = true → Token.isBeyondClock s.limits.batchDelay = true →
        ∀ g ∈ (Run.plan s scan).groups, g.2.length ≤ 1) := by
  constructor
  · intro hg
    refine ⟨h.sound_of_going hg, fun hm hb g hmem => ?_⟩
    by_contra hlen
    rw [hp] at hg
    exact Progress.runGroups_ne_going hm hb ⟨g, hmem, by omega⟩ hg
  · rintro ⟨hsound, hwaits⟩
    rcases h.going_or_wait hs ht hsound with hg | ⟨f, hw⟩
    · exact hg
    · rw [hp] at hw
      obtain ⟨hm, hb, g, hmem, hlen⟩ := Progress.runGroups_eq_wait rfl hw
      have := hwaits hm hb g hmem
      omega

/-- A run that nobody calls off returns the findings of its whole plan exactly if no answer has a
line number with too many digits, no call fails by a time-out, and no wait is too long for the
clock. -/
theorem Run.analyze_completes_iff (s : Setup σ) (clock : Clock) (site : Site) (target : String)
    (includes ignores : List String) (adapter : Adapter σ) (token : Token) (scan : Scan)
    (hscan : Scan.run site target ⟨includes, ignores, s.limits.bounds.maxFileSize⟩ = .ok scan)
    (hs : s.Uncancelled) (ht : token.fired = false) :
    (∀ ix text, (Response.read ix text).fault = none ↔ Response.Readable text) ∧
    ((∃ r, (Run.analyze s clock site target includes ignores adapter token).outcome = .ok r ∧
        r.cancelled = false ∧
        Account scan.root (s.oracle.calls s.audit adapter.state 1 (Run.plan s scan).batches) r) ↔
      (∀ c ∈ s.oracle.calls s.audit adapter.state 1 (Run.plan s scan).batches, c.Sound) ∧
      (s.waiting.measured = true → Token.isBeyondClock s.limits.batchDelay = true →
        ∀ g ∈ (Run.plan s scan).groups, g.2.length ≤ 1)) := by
  refine ⟨fun _ _ => Response.read_fault_eq_none_iff, ?_⟩
  obtain ⟨p, e, hp, hcourse⟩ := Run.analyze_course clock adapter token hscan
  rw [e, ← Run.going_iff hs ht hp hcourse]
  constructor
  · rintro ⟨r, hr, hc, -⟩
    cases hst : p.status with
    | going => rfl
    | aborted f =>
      rw [Progress.outcome_finish_of_aborted hst] at hr
      cases hr
    | cancelled =>
      obtain ⟨d, hd⟩ := Progress.outcome_finish (p := p) clock.seconds (by simp [hst])
      rw [hd, hst] at hr
      cases hr
      simp at hc
  · intro hg
    obtain ⟨d, hd⟩ := Progress.outcome_finish (p := p) clock.seconds (by simp [hg])
    have haccount := (hcourse.of_going hg).1.account (Run.opened_account ..)
    exact ⟨_, hd, by simp [hg], haccount.finish _ _⟩

theorem Sample.uncancelled (e : Ending) (h : e ≠ .silent) : (Sample.setup [e]).Uncancelled := by
  refine ⟨rfl, fun _ _ => rfl, fun n r => ?_⟩
  cases n with
  | zero => exact h
  | succ n => exact h

theorem Run.analyze_completes_iff_sample : ∃ scan,
    Scan.run Sample.site "/p" ⟨["*.js"], [], 102400⟩ = .ok scan ∧
    (Sample.setup [.text Response.twoRecords]).Uncancelled ∧ ({} : Token).fired = false ∧
    (∀ ix text, (Response.read ix text).fault = none ↔ Response.Readable text) ∧
    ((∃ r, (Sample.run [.text Response.twoRecords]).outcome = .ok r ∧ r.cancelled = false ∧
        Account scan.root ((Sample.setup [.text Response.twoRecords]).oracle.calls none 0 1
          (Run.plan (Sample.setup [.text Response.twoRecords]) scan).batches) r) ↔
      (∀ c ∈ (Sample.setup [.text Response.twoRecords]).oracle.calls none 0 1
        (Run.plan (Sample.setup [.text Response.twoRecords]) scan).batches, c.Sound) ∧
      (({} : Waiting).measured = true →
        Token.isBeyondClock (Sample.setup [.text Response.twoRecords]).limits.batchDelay = true →
        ∀ g ∈ (Run.plan (Sample.setup [.text Response.twoRecords]) scan).groups,
          g.2.length ≤ 1)) := by
  obtain ⟨scan, hscan, -⟩ := Sample.exists_scan [.text Response.twoRecords]
  have hs := Sample.uncancelled (.text Response.twoRecords) (by simp)
  exact ⟨scan, hscan, hs, rfl,
    Run.analyze_completes_iff _ Sample.clock _ _ _ _ { state := 0 } {} scan hscan hs rfl⟩

/-! ## A line number that is too long -/

/-- A header line with a first line number of more digits than are read. -/
def Sample.longLine : List Char :=
  ['🚨', ' ', 'a', '.', 'j', 's', ':'] ++ (List.replicate (Number.maxDigits + 1) '1' ++ ['-', '1'])

theorem Sample.longLine_fits : (⟨.critical, ['a', '.', 'j', 's'],
    List.replicate (Number.maxDigits + 1) '1', ['1']⟩ : Response.Header).Fits Sample.longLine := by
  have hspan : Response.SpanForm (List.replicate (Number.maxDigits + 1) '1') ['1']
      (List.replicate (Number.maxDigits + 1) '1' ++ ['-', '1']) := by
    refine ⟨⟨by simp, fun c hc => ?_⟩, ⟨by simp, List.forall_mem_singleton.2 (by decide)⟩,
      [], [], [], [], ?_⟩
    · rw [List.eq_of_mem_replicate hc]
      decide
    · simp [Text.Gaps]
  have hgap : Text.Gaps [' '] := List.forall_mem_singleton.2 rfl
  exact ⟨[], ['🚨'], [' '], _, .indent (by simp [Text.Gaps]), .critical, hgap, by simp,
    ⟨⟨⟨_, rfl, by decide⟩, ⟨_, rfl, by decide⟩⟩, [], _, by simp [Text.Gaps], hspan, rfl⟩, rfl⟩

theorem Sample.longLine_not_readable : ¬ Response.Readable (String.ofList Sample.longLine) := by
  intro h
  have hr : '\r' ∉ Sample.longLine := by simp [Sample.longLine, List.mem_replicate]
  have hn : '\n' ∉ Sample.longLine := by simp [Sample.longLine, List.mem_replicate]
  rw [Response.Readable, String.toList_ofList, Text.foldReturns_eq_self hr,
    Text.splitFeeds_eq_singleton hn] at h
  have hshort := (h _ (List.mem_singleton_self _) _ Sample.longLine_fits).1
  rw [List.length_replicate] at hshort
  exact absurd hshort (Nat.not_succ_le_self _)

/-- An answer with such a line ends the run without a result. -/
theorem Run.analyze_aborts_on_longLine :
    ¬ ∃ r, (Sample.run [.text (String.ofList Sample.longLine)]).outcome = .ok r := by
  rintro ⟨r, hr⟩
  obtain ⟨scan, hscan, hlen⟩ := Sample.exists_scan [.text (String.ofList Sample.longLine)]
  obtain ⟨p, e, -, hcourse⟩ := Run.analyze_course Sample.clock { state := 0 } {} hscan
  rw [Sample.run, e] at hr
  obtain ⟨b, hb⟩ := List.length_eq_one_iff.1 hlen
  rw [hb] at hcourse
  have hs := Sample.uncancelled (.text (String.ofList Sample.longLine)) (by simp)
  have hcancelled : p.status ≠ .cancelled := by
    refine hcourse.not_cancelled hs rfl fun c hc => ?_
    cases List.mem_singleton.1 hc
    simp [Sample.setup, Oracle.scripted, Run.opened, Progress.tell]
  cases hst : p.status with
  | cancelled => exact hcancelled hst
  | aborted f =>
    rw [Progress.outcome_finish_of_aborted hst] at hr
    cases hr
  | going =>
    have hsound := (hcourse.sound_of_going hst _ (List.mem_singleton_self _)).2
    refine Sample.longLine_not_readable (hsound _ ?_)
    have hblank : Text.isAllBlank (String.ofList Sample.longLine) = false := by
      rw [Text.isAllBlank, String.toList_ofList]
      rfl
    simp [Sample.setup, Oracle.scripted, Run.opened, Progress.tell, Ending.answer?, hblank]

end PerfReview
