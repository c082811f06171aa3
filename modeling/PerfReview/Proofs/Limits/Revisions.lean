import PerfReview.Proofs.Settings.Limits
import PerfReview.Service
import PerfReview.Session
import PerfReview.Standard

/-!
# Limits revised again and again

Limits are revised by settings, by options of the command line and by orders to the service, one
after the other; a revision that is refused leaves them as they are. Counts stay positive and the
delay is never below zero. The test of the delay lets through what is not below zero without being
a number: settings and orders can set not-a-number and infinity, and each of the three a delay that
the clock cannot measure.
-/

namespace PerfReview

open Number (Binary64)

def Amount.isFinite : Amount → Bool
  | real x => x.isFinite
  | whole _ | flag _ => true

/-- A wait for an amount comes to its end for every token exactly if the clock can measure it. -/
theorem Token.wait_isOk_iff {a : Amount} :
    (∀ t : Token, ∃ fired, t.wait a = .ok fired) ↔ Token.isBeyondClock a = false := by
  unfold Token.wait
  cases Token.isBeyondClock a with
  | false =>
    refine iff_of_true (fun t => ?_) rfl
    cases t.fired <;> simp
  | true => exact iff_of_false (fun h => by simpa using h {}) nofun

namespace Limits

/-! ## Tables -/

def optionsTable (o : ScanOptions) (delay : Option Json) : List (String × Option Json) := [
  ("max_files", o.maxFiles.map (Session.limitOf 1)),
  ("batch_size", o.batchSize.map (Session.limitOf 1)),
  ("max_file_size", o.maxSize.map (Session.limitOf 1024)), ("batch_delay", delay),
  ("token_budget", o.tokenBudget.map (Session.limitOf 1))]

theorem limitOf_ne_null (unit : Int) (n : Option Int) : Session.limitOf unit n ≠ .null := by
  cases n <;> exact nofun

theorem settable_optionsTable (o : ScanOptions) {delay : Option Json} (h : delay ≠ some .null) :
    Settable (optionsTable o delay) where
  names := by simp [optionsTable, names]
  nodup := by
    show ["max_files", "batch_size", "max_file_size", "batch_delay", "token_budget"].Nodup
    decide
  sets := by simp [optionsTable, limitOf_ne_null, h]

def orderTable (maxFiles batchSize maxFileSize tokenBudget : Option Int)
    (delay : Option Binary64) : List (String × Option Json) := [
  ("max_files", maxFiles.map .int), ("batch_size", batchSize.map .int),
  ("max_file_size", maxFileSize.map .int), ("token_budget", tokenBudget.map .int),
  ("batch_delay", delay.map .float)]

theorem settable_orderTable (a b c d : Option Int) (delay : Option Binary64) :
    Settable (orderTable a b c d delay) where
  names := by simp [orderTable, names]
  nodup := by
    show ["max_files", "batch_size", "max_file_size", "token_budget", "batch_delay"].Nodup
    decide
  sets := by simp [orderTable]

/-! ## Revisions -/

/-- What revises limits: a part of a settings document, options, or the body of an order. -/
inductive Revision where
  | settings (v : Value)
  | options (o : ScanOptions)
  | order (body : Json)

section
variable [Service.Coercion]

namespace Revision

/-- The limits that a revision makes of others, unless it is refused. -/
def apply (r : Revision) (l : Limits) : Option Limits :=
  match r with
  | settings v => (Settings.limitsOf v l).toOption
  | options o => (Session.limitsFor o l).toOption
  | order body => (Service.Order.ofJson? body).bind fun o => (l.override o.limits).toOption

def delay? : Revision → Option Binary64
  | settings v => (v.field "batch_delay").asReal?.toOption.join.map Settings.thousandth
  | options o => (o.batchDelay.join.bind Binary64.ofInt?).map Settings.thousandth
  | order body => (Service.Order.optional Service.Coercion.real? body "batch_delay").join

variable {l l' : Limits}

/-- Options set a delay that is finite. -/
theorem isFinite_of_options {o : ScanOptions} {x : Binary64} (h : (options o).delay? = some x) :
    x.isFinite = true := by
  obtain ⟨y, hy, rfl⟩ := Option.map_eq_some_iff.1 h
  obtain ⟨ms, -, hms⟩ := Option.bind_eq_some_iff.1 hy
  exact Settings.thousandth_isFinite hms

theorem delay_of_settings {v : Value} (hl : l.batchDelay.isNegative = false)
    (h : (settings v).apply l = some l') :
    l'.batchDelay = ((settings v).delay?.map Amount.real).getD l.batchDelay ∧
      l'.batchDelay.isNegative = false := by
  have h := eq_ok_of_toOption h
  rw [Settings.limitsOf_eq hl] at h
  obtain ⟨delay, hdelay, h⟩ := Settings.bind_eq_ok.1 h
  have hset : (settings v).delay? = delay.map Settings.thousandth := by
    simp [delay?, hdelay, Except.toOption]
  rw [hset]
  refine (Settings.settable_table v delay).delay_eq ?_ (Settings.mapError_eq_ok.1 h)
  rw [(Settings.get?_table v delay).2, Option.map_map]
  rfl

/-! ## Options -/

theorem delay?_of_mapM {o : ScanOptions} {delay : Option Json}
    (h : o.batchDelay.mapM Session.delayOf = .ok delay) :
    delay = (options o).delay?.map Json.float := by
  unfold delay?
  dsimp only
  generalize o.batchDelay = given at h
  match given with
  | none =>
    cases h
    rfl
  | some none => cases h
  | some (some ms) =>
    cases hms : Binary64.ofInt? ms with
    | none =>
      simp [Session.delayOf, hms] at h
    | some x =>
      simp [Session.delayOf, hms] at h
      simp [← h, hms]

theorem delay_of_options {o : ScanOptions} (h : (options o).apply l = some l') :
    l'.batchDelay = ((options o).delay?.map Amount.real).getD l.batchDelay ∧
      l'.batchDelay.isNegative = false := by
  have h := eq_ok_of_toOption h
  obtain ⟨delay, hdelay, h⟩ := Settings.bind_eq_ok.1 h
  have hset := delay?_of_mapM hdelay
  have hnull : delay ≠ some .null := by
    rw [hset]
    cases (options o).delay? <;> simp
  refine (settable_optionsTable o hnull).delay_eq ?_ (Settings.mapError_eq_ok.1 h)
  simp [optionsTable, Assoc.get?_cons, hset]

/-! ## Orders -/

theorem exists_orderTable {body : Json} {o : Service.Order}
    (h : Service.Order.ofJson? body = some o) :
    ∃ a b c d, o.limits = Assoc.present (orderTable a b c d (order body).delay?) := by
  simp only [Service.Order.ofJson?, Option.bind_eq_bind, Option.bind_eq_some_iff, Option.pure_def,
    Option.some.injEq, List.mapM_cons, List.mapM_nil, Service.Order.readCount,
    Option.map_eq_some_iff] at h
  obtain ⟨_, -, _, -, _, ⟨_, ⟨a, -, rfl⟩, _, ⟨_, ⟨b, -, rfl⟩, _, ⟨_, ⟨c, -, rfl⟩, _, ⟨_, ⟨d, -,
    rfl⟩, _, rfl, rfl⟩, rfl⟩, rfl⟩, rfl⟩, delay, hdelay, _, -, _, -, _, -, rfl⟩ := h
  have hset : (order body).delay? = delay := by
    simp [delay?, hdelay]
  refine ⟨a, b, c, d, ?_⟩
  rw [hset]
  simp [Assoc.present, orderTable, List.filterMap_eq_flatMap_toList, Function.comp_def]

theorem delay_of_order {body : Json} (h : (order body).apply l = some l') :
    l'.batchDelay = ((order body).delay?.map Amount.real).getD l.batchDelay ∧
      l'.batchDelay.isNegative = false := by
  obtain ⟨o, ho, h⟩ := Option.bind_eq_some_iff.1 h
  obtain ⟨a, b, c, d, hlimits⟩ := exists_orderTable ho
  have h := eq_ok_of_toOption h
  rw [hlimits] at h
  refine (settable_orderTable a b c d _).delay_eq ?_ h
  simp [orderTable, Assoc.get?_cons]

/-- What a revision does to the delay. -/
theorem delay_of_apply {r : Revision} (hl : l.batchDelay.isNegative = false)
    (h : r.apply l = some l') :
    l'.batchDelay = (r.delay?.map Amount.real).getD l.batchDelay ∧
      l'.batchDelay.isNegative = false := by
  cases r with
  | settings v => exact delay_of_settings hl h
  | options o => exact delay_of_options h
  | order body => exact delay_of_order h

end Revision

/-! ## Revisions one after the other -/

/-- The revisions that are not refused, one after the other, each with the limits that it makes. -/
def course (l : Limits) : List Revision → List (Revision × Limits)
  | [] => []
  | r :: rs =>
    match r.apply l with
    | some l' => (r, l') :: l'.course rs
    | none => l.course rs

variable {l l' : Limits} {r : Revision} {rs : List Revision}

theorem course_cons_of_none (h : r.apply l = none) : l.course (r :: rs) = l.course rs := by
  rw [course, h]

theorem course_cons_of_some (h : r.apply l = some l') :
    l.course (r :: rs) = (r, l') :: l'.course rs := by
  rw [course, h]

/-- No delay is ever below zero. -/
theorem isNegative_of_mem_course (hl : l.batchDelay.isNegative = false) (rs : List Revision) :
    ∀ p ∈ l.course rs, p.2.batchDelay.isNegative = false := by
  induction rs generalizing l with
  | nil => simp [course]
  | cons r rs ih =>
    cases h : r.apply l with
    | none =>
      rw [course_cons_of_none h]
      exact ih hl
    | some l' =>
      rw [course_cons_of_some h]
      have hl' := (Revision.delay_of_apply hl h).2
      exact List.forall_mem_cons.2 ⟨hl', ih hl'⟩

/-- What holds of every delay, the first one included, holds of the first one and of all that are
set. -/
theorem forall_course_iff (P : Amount → Prop) (hl : l.batchDelay.isNegative = false)
    (rs : List Revision) :
    (P l.batchDelay ∧ ∀ p ∈ l.course rs, P p.2.batchDelay) ↔
      P l.batchDelay ∧ ∀ p ∈ l.course rs, ∀ x ∈ p.1.delay?, P (.real x) := by
  induction rs generalizing l with
  | nil => simp [course]
  | cons r rs ih =>
    cases h : r.apply l with
    | none =>
      rw [course_cons_of_none h]
      exact ih hl
    | some l' =>
      rw [course_cons_of_some h]
      obtain ⟨hdelay, hl'⟩ := Revision.delay_of_apply hl h
      have hstep : P l.batchDelay → (P l'.batchDelay ↔ ∀ x ∈ r.delay?, P (.real x)) := fun hP => by
        rw [hdelay]
        cases r.delay? <;> simp [hP]
      simp only [List.forall_mem_cons]
      refine and_congr_right fun hP => ?_
      rw [ih hl', hstep hP]

/-- Limits that have been tested keep positive counts and a delay that is not below zero, however
they are revised, and a plan can be made under them. All their delays are finite exactly if the
first one is and all that are set are, and all can be waited for exactly if the clock can measure
the first one and all that are set. -/
theorem course_usable (l : Limits) (hl : l.batchDelay.isNegative = false) (rs : List Revision) :
    (∀ p ∈ l.course rs, p.2.bounds.Usable ∧ (∀ files, (Plan.make? p.2.bounds files).isSome) ∧
      p.2.batchDelay.isNegative = false) ∧
    ((l.batchDelay.isFinite = true ∧ ∀ p ∈ l.course rs, p.2.batchDelay.isFinite = true) ↔
      l.batchDelay.isFinite = true ∧ ∀ p ∈ l.course rs, ∀ x ∈ p.1.delay?, x.isFinite = true) ∧
    (((∀ t : Token, ∃ fired, t.wait l.batchDelay = .ok fired) ∧
        ∀ p ∈ l.course rs, ∀ t : Token, ∃ fired, t.wait p.2.batchDelay = .ok fired) ↔
      Token.isBeyondClock l.batchDelay = false ∧
        ∀ p ∈ l.course rs, ∀ x ∈ p.1.delay?, Token.isBeyondClock (.real x) = false) := by
  refine ⟨fun p hp => ⟨p.2.bounds_usable, fun files => ?_, isNegative_of_mem_course hl rs p hp⟩,
    forall_course_iff (·.isFinite = true) hl rs, ?_⟩
  · rw [Plan.make?, if_pos p.2.bounds_usable]
    rfl
  · simp only [Token.wait_isOk_iff]
    exact forall_course_iff (Token.isBeyondClock · = false) hl rs

end

namespace Sample

def delaying (delay : Value) : Revision := .settings (.map [(.text "batch_delay", delay)])

/-- A quarter of a second, which is 250 milliseconds. -/
def quarter : Binary64 := .ofRatio false 1 4

theorem apply_delaying :
    (delaying (.text "250")).apply {} = some { batchDelay := .real quarter } ∧
      (delaying (.text "250")).delay? = some quarter := by
  decide +kernel

end Sample

theorem course_usable_quarter : ∃ l : Limits,
    ({} : Limits).course [Sample.delaying (.text "250")] =
      [(Sample.delaying (.text "250"), l)] ∧
    l.bounds.Usable ∧ l.batchDelay.isFinite = true ∧
    ∀ t : Token, ∃ fired, t.wait l.batchDelay = .ok fired := by
  obtain ⟨happly, hdelay⟩ := Sample.apply_delaying
  have hcourse : ({} : Limits).course [Sample.delaying (.text "250")] =
      [(Sample.delaying (.text "250"), { batchDelay := .real Sample.quarter })] :=
    course_cons_of_some happly
  have hset : ∀ p ∈ ({} : Limits).course [Sample.delaying (.text "250")], ∀ x ∈ p.1.delay?,
      x = Sample.quarter := by
    rw [hcourse]
    simp [hdelay]
  obtain ⟨husable, hfinite, hwait⟩ := course_usable {} rfl [Sample.delaying (.text "250")]
  have hfinite := (hfinite.2 ⟨rfl, fun p hp x hx => hset p hp x hx ▸ rfl⟩).2
  have hwait := (hwait.2 ⟨by decide, fun p hp x hx => hset p hp x hx ▸ by decide⟩).2
  rw [hcourse] at husable hfinite hwait
  rw [List.forall_mem_singleton] at husable hfinite hwait
  exact ⟨_, hcourse, husable.1, hfinite, hwait⟩

/-- Not-a-number passes the test of the delay. -/
theorem not_isFinite_nan : ∃ l : Limits, (Sample.delaying (.float .nan)).apply {} = some l ∧
    l.batchDelay.isFinite = false := by
  refine ⟨{ batchDelay := .real .nan }, ?_, rfl⟩
  decide +kernel

end Limits

end PerfReview
