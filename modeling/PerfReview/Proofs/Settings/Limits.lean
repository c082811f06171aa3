import PerfReview.Proofs.Faults
import PerfReview.Proofs.Limits
import PerfReview.Proofs.Number.Finite

/-!
# Limits of settings

Settings change limits by counts and a delay. A count is refused if it is not positive, the delay if
it is below zero, and the first refusal is what is told. Integers come from a document in any size:
one that is refused may be too long to be told, and a delay may be beyond the floating-point
numbers.
-/

namespace PerfReview

namespace LimitsFault

/-- The fault is one that limits state themselves. -/
def isOwn : LimitsFault → Bool
  | notPositive _ _ | negativeDelay _ => true
  | _ => false

end LimitsFault

namespace SettingsFault

/-- The fault is one that loading states itself. -/
def isOwn : SettingsFault → Bool
  | malformed _ | notMap _ | format _ => true
  | limits f => f.isOwn
  | _ => false

end SettingsFault

namespace Value

variable {v : Value}

/-- An integer in the place of a floating-point number is nearest to one. -/
def InRange (v : Value) : Prop := ∀ n, v = .int n → n.natAbs < Number.Binary64.reach

@[simp] theorem inRange_null : InRange .null := fun _ h => nomatch h

theorem asReal?_failsOnly : FailsOnly (fun f => !f.isOwn) v.asReal? := by
  unfold asReal?
  split
  any_goals split
  all_goals simp [SettingsFault.isOwn]

theorem exists_asReal?_iff : (∃ x, v.asReal? = .ok x) ↔ v.InRange := by
  unfold asReal? InRange
  cases v with
  | int n =>
    simp only [int.injEq, forall_eq', ← Number.Binary64.ofInt?_isSome_iff]
    cases Number.Binary64.ofInt? n <;> simp
  | _ => simp

end Value

namespace Settings

open Value (InRange)

/-- The names of the counts in the order in which they are tested. -/
def countNames : List String := ["max_files", "batch_size", "max_file_size", "token_budget"]

/-- The count of a name where it is given and not positive. -/
def refused (v : Value) (name : String) : Option Int := (v.field name).asInt?.filter (· ≤ 0)

def firstRefused (v : Value) : Option Int := countNames.findSome? (refused v)

/-- The limits of the settings are taken: no count is refused, nor is the delay. -/
def Accepts (v : Value) : Prop :=
  firstRefused v = none ∧
    ∀ x, (v.field "batch_delay").asReal? = .ok (some x) → (thousandth x).isNegative = false

variable {v : Value} {l : Limits} {fs : List (String × Json)} {name : String}

/-- The value of a count that is tested is the given one or the count so far. -/
theorem count_eq {c : Count}
    (h : Assoc.get? fs name = ((v.field name).asInt?.map Json.int).or (some c.toJson)) :
    (refused v name = none ∧ ∃ c, Limits.count fs name = .ok c) ∨
      ∃ n, refused v name = some n ∧
        Limits.count fs name = .error (.notPositiveOr name (.int n)) := by
  unfold Limits.count refused
  rw [h]
  cases hn : (v.field name).asInt? with
  | none => simp [Count.ofJson?_toJson]
  | some n =>
    by_cases hpos : 0 < n
    · simp [Count.ofJson?, hpos, Option.filter]
    · simp [Count.ofJson?, hpos, Option.filter, Int.not_lt.1 hpos]

theorem check_eq (v : Value) (fs : List (String × Json)) (h : ∀ name ∈ countNames, ∃ c : Count,
      Assoc.get? fs name = ((v.field name).asInt?.map Json.int).or (some c.toJson)) :
    (∃ n name, firstRefused v = some n ∧
        Limits.check fs = .error (.notPositiveOr name (.int n))) ∨
      (firstRefused v = none ∧
        ∃ a b c d, Limits.check fs = (Limits.delay fs).map fun x => ⟨a, b, c, x, d⟩) := by
  have hcount : ∀ name ∈ countNames, _ := fun name hname => count_eq (h name hname).choose_spec
  simp only [countNames, List.forall_mem_cons, List.not_mem_nil, false_implies, implies_true,
    and_true] at hcount
  obtain ⟨hfiles, hbatch, hsize, hbudget⟩ := hcount
  unfold firstRefused countNames Limits.check
  simp only [List.findSome?_cons, List.findSome?_nil]
  obtain ⟨hn, a, ha⟩ | ⟨n, hn, he⟩ := hfiles
  · obtain ⟨hn₂, b, hb⟩ | ⟨n, hn₂, he⟩ := hbatch
    · obtain ⟨hn₃, c, hc⟩ | ⟨n, hn₃, he⟩ := hsize
      · obtain ⟨hn₄, d, hd⟩ | ⟨n, hn₄, he⟩ := hbudget
        · refine .inr ⟨by rw [hn, hn₂, hn₃, hn₄], a, b, c, d, ?_⟩
          rw [ha, hb, hc, hd]
          cases Limits.delay fs <;> rfl
        · exact .inl ⟨n, _, by rw [hn, hn₂, hn₃, hn₄], by rw [ha, hb, hc, he]; rfl⟩
      · exact .inl ⟨n, _, by rw [hn, hn₂, hn₃], by rw [ha, hb, he]; rfl⟩
    · exact .inl ⟨n, _, by rw [hn, hn₂], by rw [ha, he]; rfl⟩
  · exact .inl ⟨n, _, by rw [hn], by rw [he]; rfl⟩

/-- The delay that is tested is the given one or the delay so far. -/
theorem delay_eq (delay : Option Number.Binary64) (hl : l.batchDelay.isNegative = false)
    (h : Assoc.get? fs "batch_delay" =
      (delay.map fun x => Json.float (thousandth x)).or (some l.batchDelay.toJson)) :
    ((∀ x, delay = some x → (thousandth x).isNegative = false) ∧
        ∃ a, Limits.delay fs = .ok a) ∨
      ∃ x, delay = some x ∧ (thousandth x).isNegative = true ∧
        Limits.delay fs = .error (.negativeDelay (.float (thousandth x))) := by
  unfold Limits.delay
  rw [h]
  cases delay with
  | none => simp [Amount.ofJson?_toJson, hl]
  | some x =>
    cases hx : (thousandth x).isNegative with
    | false => simp [Amount.ofJson?, Amount.isNegative, hx]
    | true =>
      simp [Amount.ofJson?, Amount.isNegative, hx, LimitsFault.negativeDelayOr, Json.toValue,
        Value.isUnwritable]

def table (v : Value) (delay : Option Number.Binary64) : List (String × Option Json) := [
  ("max_files", (v.field "max_files").asInt?.map .int),
  ("batch_size", (v.field "batch_size").asInt?.map .int),
  ("max_file_size", (v.field "max_file_size").asInt?.map .int),
  ("token_budget", (v.field "token_budget").asInt?.map .int),
  ("batch_delay", delay.map fun x => .float (thousandth x))]

theorem settable_table (v : Value) (delay : Option Number.Binary64) :
    Limits.Settable (table v delay) where
  names := by simp [table, Limits.names]
  nodup := by
    show ["max_files", "batch_size", "max_file_size", "token_budget", "batch_delay"].Nodup
    decide
  sets := by simp [table]

theorem get?_table (v : Value) (delay : Option Number.Binary64) :
    (∀ name ∈ countNames, (Assoc.get? (table v delay) name).join =
      (v.field name).asInt?.map Json.int) ∧
    (Assoc.get? (table v delay) "batch_delay").join =
      delay.map fun x => Json.float (thousandth x) := by
  simp [countNames, table, Assoc.get?_cons]

theorem get?_fields_count (l : Limits) :
    ∀ name ∈ countNames, ∃ c : Count, Assoc.get? l.fields name = some c.toJson := by
  simp [countNames, Limits.fields, Assoc.get?_cons]

/-- How a change of limits by settings ends. -/
theorem override_table (v : Value) (delay : Option Number.Binary64)
    (hl : l.batchDelay.isNegative = false) :
    (firstRefused v = none ∧ (∀ x, delay = some x → (thousandth x).isNegative = false) ∧
        ∃ l', l.override (Assoc.present (table v delay)) = .ok l') ∨
      (∃ n name, firstRefused v = some n ∧
        l.override (Assoc.present (table v delay)) = .error (.notPositiveOr name (.int n))) ∨
      (firstRefused v = none ∧ ∃ x, delay = some x ∧ (thousandth x).isNegative = true ∧
        l.override (Assoc.present (table v delay)) =
          .error (.negativeDelay (.float (thousandth x)))) := by
  obtain ⟨fs, hfs, hget⟩ := (settable_table v delay).override_eq l
  obtain ⟨hcounts, hdelay⟩ := get?_table v delay
  rw [hfs]
  have hcheck := check_eq v fs fun name hname => by
    obtain ⟨c, hc⟩ := get?_fields_count l name hname
    exact ⟨c, by rw [hget, hcounts name hname, hc]⟩
  obtain ⟨n, name, hn, he⟩ | ⟨hn, a, b, c, d, he⟩ := hcheck
  · exact .inr (.inl ⟨n, name, hn, he⟩)
  · rw [he]
    obtain ⟨hx, x, ha⟩ | ⟨x, hx, hneg, ha⟩ := delay_eq delay hl (by
      rw [hget, hdelay, Limits.get?_fields_delay])
    · exact .inl ⟨hn, hx, _, by rw [ha]; rfl⟩
    · exact .inr (.inr ⟨hn, x, hx, hneg, by rw [ha]; rfl⟩)

/-- Settings change limits by their table. Where they set none, the limits stay as they are, which
is what changing nothing does. -/
theorem limitsOf_eq (hl : l.batchDelay.isNegative = false) : limitsOf v l = (do
    let delay ← (v.field "batch_delay").asReal?
    (l.override (Assoc.present (table v delay))).mapError .limits) := by
  unfold limitsOf
  refine congrArg ((v.field "batch_delay").asReal? >>= ·) (funext fun delay => ?_)
  have htable : Assoc.present (table v delay) =
      ((v.field "max_files").asInt?.map fun n => ("max_files", Json.int n)).toList ++
      ((v.field "batch_size").asInt?.map fun n => ("batch_size", Json.int n)).toList ++
      ((v.field "max_file_size").asInt?.map fun n => ("max_file_size", Json.int n)).toList ++
      ((v.field "token_budget").asInt?.map fun n => ("token_budget", Json.int n)).toList ++
      (delay.map fun x => ("batch_delay", Json.float (thousandth x))).toList := by
    simp [Assoc.present, table, List.filterMap_eq_flatMap_toList, Function.comp_def]
  rw [htable]
  dsimp only
  split
  · rename_i hempty
    rw [List.isEmpty_iff.1 hempty, Limits.override_nil hl]
    rfl
  · rfl

theorem exists_limitsOf_iff (hl : l.batchDelay.isNegative = false) :
    (∃ l', limitsOf v l = .ok l') ↔ InRange (v.field "batch_delay") ∧ Accepts v := by
  rw [limitsOf_eq hl, ← Value.exists_asReal?_iff]
  unfold Accepts
  cases (v.field "batch_delay").asReal? with
  | error f => simp [bind, Except.bind]
  | ok delay =>
    simp only [bind, Except.bind, mapError_eq_ok, Except.ok.injEq, exists_eq', true_and]
    obtain ⟨hn, hx, l', h⟩ | ⟨n, name, hn, h⟩ | ⟨hn, x, hx, hneg, h⟩ :=
      override_table v delay hl
    · exact iff_of_true ⟨l', h⟩ ⟨hn, hx⟩
    · exact iff_of_false (by simp [h]) (by simp [hn])
    · exact iff_of_false (by simp [h]) fun hall => by simp [hall.2 x hx] at hneg

theorem notPositiveOr_isOwn_iff {n : Int} :
    (LimitsFault.notPositiveOr name (.int n)).isOwn = true ↔ n.natAbs < 10 ^ Number.maxDigits := by
  rw [← Json.writable_int]
  unfold LimitsFault.notPositiveOr Json.Writable
  cases (Json.int n).toValue.isUnwritable <;> simp [LimitsFault.isOwn]

theorem limitsOf_failsOnly_iff (hl : l.batchDelay.isNegative = false) :
    FailsOnly SettingsFault.isOwn (limitsOf v l) ↔ InRange (v.field "batch_delay") ∧
      ∀ n, firstRefused v = some n → n.natAbs < 10 ^ Number.maxDigits := by
  rw [limitsOf_eq hl, failsOnly_bind, failsOnly_iff_exists Value.asReal?_failsOnly,
    Value.exists_asReal?_iff]
  refine and_congr_right fun hrange => ?_
  obtain ⟨delay, hdelay⟩ := Value.exists_asReal?_iff.2 hrange
  rw [hdelay]
  simp only [Except.ok.injEq, forall_eq', failsOnly_mapError]
  obtain ⟨hn, -, l', h⟩ | ⟨n, name, hn, h⟩ | ⟨hn, x, hx, -, h⟩ :=
    override_table v delay hl
  · simp [h, hn]
  · rw [h, failsOnly_error, hn]
    have hfault : (SettingsFault.limits (.notPositiveOr name (.int n))).isOwn =
        (LimitsFault.notPositiveOr name (.int n)).isOwn := rfl
    rw [hfault, notPositiveOr_isOwn_iff]
    simp only [Option.some.injEq, forall_eq']
  · simp [h, hn, SettingsFault.isOwn, LimitsFault.isOwn]

end Settings

end PerfReview
