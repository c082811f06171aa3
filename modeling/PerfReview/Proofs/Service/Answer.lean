import PerfReview.Proofs.Limits
import PerfReview.Proofs.Report.Document
import PerfReview.Service

/-!
# What the service answers

The answer of the service to a review carries the report of its result. There is one exactly if the
report has a text that can be written, and the two are read as the same report, whose lists are as
long as the answer says.
-/

namespace PerfReview

namespace Report

/-- The numbers of a report are finite, and its findings can be counted. -/
structure Measured (r : Report) : Prop where
  duration : r.duration.toJson.Finite
  limits : ∀ l ∈ r.limits, l.toJson.Finite
  counts : ∀ v, (r.result.findings.ofSeverity v).length < 10 ^ Number.maxDigits

theorem finite_findings (f : Findings) : f.toJson.Finite := by
  refine .object fun p hp => ?_
  obtain ⟨v, -, rfl⟩ := List.mem_map.1 hp
  refine .list fun i hi => ?_
  obtain ⟨i, -, rfl⟩ := List.mem_map.1 hi
  exact .object (by simp)

theorem finite_texts (l : List String) : (Json.texts l).Finite := by
  refine .list fun v hv => ?_
  obtain ⟨s, -, rfl⟩ := List.mem_map.1 hv
  exact Json.finite_text s

theorem finite_audit (a : Audit) : a.toJson.Finite := by
  have hsections : a.sectionsJson.Finite := by
    refine .object fun f hf => ?_
    obtain ⟨f, -, rfl⟩ := List.mem_map.1 hf
    exact Json.finite_text f.2
  exact .object (by simp [hsections])

theorem Measured.finite {r : Report} (h : r.Measured) : r.toJson.Finite := by
  have hlimits : Json.Finite ((r.limits.map Limits.toJson).getD .null) := by
    cases hl : r.limits with
    | none => rfl
    | some l => exact h.limits l hl
  have hmetadata : r.metadata.Finite := .object (by simp [h.duration, hlimits])
  have hbyFile : r.byFileJson.Finite := by
    refine .object fun f hf => ?_
    obtain ⟨f, -, rfl⟩ := List.mem_map.1 hf
    exact finite_findings f.2
  refine .object fun f hf => ?_
  rcases List.mem_append.1 hf with hf | hf
  · revert f
    simp [hmetadata, hbyFile, finite_findings, finite_texts]
  · obtain ⟨a, -, rfl⟩ := List.mem_map.1 hf
    exact finite_audit a

end Report

namespace Service

open Text (isSurrogate unwritable?)

variable {r : Report}

def answerOf (r : Report) : Json := .object [
  ("status", .text (if r.result.cancelled then "cancelled" else "ok")),
  ("critical", .int r.result.findings.critical.length),
  ("warnings", .int r.result.findings.warnings.length),
  ("suggestions", .int r.result.findings.suggestions.length), ("report", r.toJson.withFinite)]

/-- What is answered when a run is over. -/
def replyTo (limits : Limits) (audit : Option Audit) (now : Moment) :
    Except RunFault Result → Reply
  | .error (.target (.unusable f)) => .crash (.run (.target (.unusable f)))
  | .error (.target f) => .failure 404 f.message
  | .error f => .crash (.run f)
  | .ok r => success ⟨r, some limits, audit, now⟩

def runOf {σ : Type} (oracle : Oracle σ) (limits : Limits) (site : Site) (state : State σ)
    (o : Order) : Progress σ :=
  Run.analyze { oracle, limits, audit := o.audit } state.clock site o.path
    (o.includes.getD defaultIncludes) (o.ignores.getD defaultIgnores) ⟨state.model, [], false⟩ {}

theorem review_of_limits {σ : Type} {s : Setup σ} {oracle : Oracle σ} {state : State σ} {o : Order}
    {limits : Limits} (h : ({} : Limits).override o.limits = .ok limits) :
    review s oracle state o =
      let p := runOf oracle limits s.site state o
      (replyTo limits o.audit p.clock.now p.outcome, ⟨p.adapter.state, p.clock⟩) := by
  unfold review
  rw [h]
  rfl

theorem review_of_limitsFault {σ : Type} {s : Setup σ} {oracle : Oracle σ} {state : State σ}
    {o : Order} {f : LimitsFault} (h : ({} : Limits).override o.limits = .error f)
    (hf : f ≠ .unwritable) : review s oracle state o = (.failure 400 f.message, state) := by
  unfold review
  rw [h]
  cases f with
  | unwritable => exact absurd rfl hf
  | _ => rfl

theorem success_eq_json_iff {answer : Json} : success r = .json 200 answer ↔
    answer = answerOf r ∧ (answerOf r).Writable ∧ unwritable? (answerOf r).dense = none := by
  unfold success answerOf
  dsimp only
  generalize Json.object _ = body
  unfold Json.Writable
  generalize body.toValue.isUnwritable = unwritable
  cases unwritable with
  | true => simp
  | false => cases unwritable? body.dense <;> simp [eq_comm]

theorem success_cases (r : Report) :
    (∃ answer, success r = .json 200 answer) ∨ ∃ f, success r = .crash f := by
  unfold success
  dsimp only
  generalize Json.object _ = body
  generalize body.toValue.isUnwritable = unwritable
  cases unwritable with
  | true => exact .inr ⟨_, rfl⟩
  | false =>
    cases Text.unwritable? body.dense with
    | some u => exact .inr ⟨_, rfl⟩
    | none => exact .inl ⟨_, rfl⟩

/-- The integers of an answer can be written if those of its report can be. -/
theorem writable_answerOf (h : r.Measured) : (answerOf r).Writable ↔ r.toJson.Writable := by
  have hcounts : ∀ v, (Json.int (r.result.findings.ofSeverity v).length).Writable := fun v =>
    Json.writable_int.2 (by rw [Int.natAbs_natCast]; exact h.counts v)
  have hfinite : r.toJson.withFinite = r.toJson := h.finite
  rw [answerOf, Json.writable_object, hfinite]
  simp only [List.forall_mem_cons, List.not_mem_nil, false_implies, implies_true, and_true]
  exact ⟨fun h => h.2.2.2.2, fun h => ⟨rfl, hcounts .critical, hcounts .warning,
    hcounts .suggestion, h⟩⟩

theorem surrogates_intText (n : Int) : (Number.intText n).toList.filter isSurrogate = [] := by
  have hdigits : (Nat.toDigits 10 n.natAbs).filter isSurrogate = [] := by
    refine List.filter_eq_nil_iff.2 fun c hc => ?_
    have hdigit : c.isDigit = true := Number.digits_toDigits _ c hc
    have hle : c.toNat ≤ 57 := by
      simp only [Char.isDigit, Bool.and_eq_true, decide_eq_true_eq] at hdigit
      exact hdigit.2
    have hlt : ¬Text.firstStandIn ≤ c.toNat := by
      unfold Text.firstStandIn
      omega
    simp [isSurrogate, hlt]
  rw [Number.intText, String.toList_ofList, Number.Layout.signed]
  split
  · rw [Json.Printer.surrogates_cons (by decide), hdigits]
  · exact hdigits

/-- An answer holds the surrogates of its report. -/
theorem surrogates_answerOf (h : r.Measured) :
    (answerOf r).dense.toList.filter isSurrogate = r.document.toList.filter isSurrogate := by
  have hkeys : ∀ k ∈ ["status", "critical", "warnings", "suggestions", "report", "ok", "cancelled"],
      (Json.Printer.string k).filter isSurrogate = [] := by
    decide +kernel
  have hstatus : (Json.Printer.string (if r.result.cancelled then "cancelled" else "ok")).filter
      isSurrogate = [] := by
    split <;> exact hkeys _ (by simp)
  have hdocument : r.document.toList.filter isSurrogate =
      (Json.Printer.line Json.Printer.denseLine r.toJson).filter isSurrogate := by
    rw [Report.document, String.toList_append, List.filter_append, Json.surrogates_print]
    simp [Json.dense, show isSurrogate '\n' = false from by decide]
  have hfinite : r.toJson.withFinite = r.toJson := h.finite
  simp only [List.forall_mem_cons] at hkeys
  rw [hdocument]
  simp (disch := decide) only [answerOf, Json.dense, String.toList_ofList, Json.Printer.line,
    Json.Printer.lineFields, Json.Printer.lineString_denseLine, Json.Printer.colon_denseLine,
    Json.Printer.comma_denseLine, List.cons_append, List.nil_append, List.filter_append,
    Json.Printer.surrogates_cons, hkeys, surrogates_intText, hstatus, hfinite, List.filter_nil,
    List.append_nil]

/-- There is an answer exactly if the report has a text that can be written. -/
theorem answers_iff (h : r.Measured) : (∃ answer, success r = .json 200 answer) ↔
    ∃ text, r.render .json = .ok text ∧ unwritable? text = none := by
  have hsurrogates : unwritable? (answerOf r).dense = none ↔ unwritable? r.document = none := by
    rw [Text.unwritable?_eq_none_iff, Text.unwritable?_eq_none_iff, surrogates_answerOf h]
  have hrender : ∀ text, r.render .json = .ok text ↔ r.toJson.Writable ∧ text = r.document := by
    intro text
    unfold Report.render Json.Writable
    generalize r.toJson.toValue.isUnwritable = unwritable
    cases unwritable <;> simp [Report.text, eq_comm]
  simp only [success_eq_json_iff, exists_and_right, exists_eq, true_and, hrender]
  rw [writable_answerOf h, hsurrogates]
  exact ⟨fun h => ⟨_, ⟨h.1, rfl⟩, h.2⟩, fun ⟨_, ⟨hw, e⟩, hu⟩ => ⟨hw, e ▸ hu⟩⟩

/-- An answer and the text of a report are read as the same report, whose lists are as long as the
answer says. -/
def Tells [Json.Room] (answer text : String) : Prop :=
  ∃ served told, Json.read answer = .ok served ∧ Json.read text = .ok told ∧
    served.field? "report" = some told ∧
    ∀ v : Severity, ∃ items,
      (told.fieldOrNull "codeAnalysis").field? v.listName = some (.list items) ∧
        served.field? v.listName = some (.int items.length)

theorem tells [Json.Room] (hk : r.Keyed) (hm : r.Measured) (hw : r.toJson.Writable) :
    Tells (answerOf r).dense r.document := by
  have hfinite : r.toJson.withFinite = r.toJson := hm.finite
  have hshaped : Json.Shaped Json.Room.maxDepth (answerOf r) := by
    obtain ⟨d, hd⟩ := Nat.exists_eq_add_of_le' (Nat.le_trans (by decide : 6 ≤ 16) Json.Room.enough)
    have hreport : Json.Shaped (d + 5) r.toJson := Report.shaped d hk
    exact hd ▸ .object (by simp) (by simp [hfinite, hreport])
  have hread := Json.read_dense hshaped ((writable_answerOf hm).2 hw)
  have hfindings : r.toJson.echo.fieldOrNull "codeAnalysis" = r.result.findings.toJson.echo := by
    simp [Report.toJson, Json.echo, Json.echoFields, Json.fieldOrNull, Json.field?, Assoc.get?_cons]
  refine ⟨_, _, hread, (Report.read_of_writable hk hw).2, ?_, fun v => ?_⟩
  · simp [answerOf, hfinite, Json.echo, Json.echoFields, Json.field?, Assoc.get?_cons]
  · refine ⟨Json.echoItems ((r.result.findings.ofSeverity v).map (·.toJson)), ?_, ?_⟩
    · rw [hfindings]
      cases v <;>
        simp [Findings.toJson, Findings.fields, Severity.all, Severity.listName, Json.echo,
          Json.echoFields, Json.field?, Assoc.get?_cons]
    · rw [Json.echoItems_eq_map, List.length_map, List.length_map]
      cases v <;>
        simp [answerOf, Severity.listName, Findings.ofSeverity, Json.echo, Json.echoFields,
          Json.field?, Assoc.get?_cons]

end Service

end PerfReview
