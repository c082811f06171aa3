import PerfReview.Audit
import PerfReview.Proofs.Faults
import PerfReview.Proofs.Number.Finite
import PerfReview.Proofs.Settings
import PerfReview.Standard

/-!
# Loading audit findings

Loading says itself that a file is not there, cannot be read or holds no JSON object. Other faults
come through from what loading is built on: the path, the bytes, the bounds of the reader, and parts
of an audit result that have not the form that its summary takes for granted.
-/

namespace PerfReview

namespace AuditFault

/-- The fault is one that loading states itself. -/
def isOwn : AuditFault → Bool
  | notFound _ | unreadable _ _ | notJson _ | notObject _ => true
  | _ => false

end AuditFault

namespace Audit

open Settings (bind_eq_ok)

variable {j v : Json} {name : String} {site : Site} {path : String}

/-- A value that can be taken for an object: it is one, or it stands for nothing. -/
def Objectlike (v : Json) : Prop := v.isSubstantial = true → v.isObject = true

/-- An audit result has the form that its summary takes for granted. -/
structure Summarizable (report : Json) : Prop where
  categories : Objectlike (report.fieldOrNull "categories")
  performance : Objectlike ((report.fieldOrNull "categories").fieldOrNull "performance")
  score : ∀ n, ((report.fieldOrNull "categories").fieldOrNull "performance").fieldOrNull "score" =
    .int n → n.natAbs < Number.Binary64.reach
  audits : Objectlike (report.fieldOrNull "audits")

def IsResult (j : Json) : Prop :=
  (j.field? "audits").isSome = true ∧ (j.field? "categories").isSome = true

theorem not_isResult (h : ¬j.isObject = true) : ¬IsResult j := by
  cases j with
  | object fields => exact absurd rfl h
  | _ => exact fun h => absurd h.1 (by simp [Json.field?])

theorem fieldOrNull_of_insubstantial (h : v.isSubstantial = false) (name : String) :
    v.fieldOrNull name = .null := by
  cases v with
  | object fields =>
    cases fields with
    | nil => rfl
    | cons f fs => cases h
  | _ => rfl

theorem exists_objectAt_iff : (∃ o, objectAt j name = .ok o) ↔ Objectlike (j.fieldOrNull name) := by
  unfold objectAt Objectlike
  dsimp only
  cases (j.fieldOrNull name).isSubstantial with
  | false => simp
  | true => cases (j.fieldOrNull name).isObject <;> simp

/-- The object that a field is taken for has the fields of its value. -/
theorem fieldOrNull_of_objectAt {o : Json} (h : objectAt j name = .ok o) (inner : String) :
    o.fieldOrNull inner = (j.fieldOrNull name).fieldOrNull inner := by
  unfold objectAt at h
  dsimp only at h
  split at h
  · rename_i hvoid
    cases h
    exact (fieldOrNull_of_insubstantial (by simpa using hvoid) inner).symm
  · split at h
    · cases h
      rfl
    · cases h

theorem exists_percent_iff {score : Json} : (∃ text, percent score = .ok text) ↔
    ∀ n, score = .int n → n.natAbs < Number.Binary64.reach := by
  cases score with
  | int n =>
    simp only [percent, Json.int.injEq, forall_eq', ← Number.Binary64.ofInt?_isSome_iff]
    cases Number.Binary64.ofInt? n <;> simp
  | _ => simp [percent]

/-- There is a summary of exactly the audit results that have the form for it. -/
theorem exists_summary_iff : (∃ text, summary j = .ok text) ↔ Summarizable j := by
  constructor
  · rintro ⟨text, h⟩
    obtain ⟨categories, hcategories, h⟩ := bind_eq_ok.1 h
    obtain ⟨performance, hperformance, h⟩ := bind_eq_ok.1 h
    obtain ⟨score, hscore, h⟩ := bind_eq_ok.1 h
    obtain ⟨audits, haudits, -⟩ := bind_eq_ok.1 h
    have hfield : ∀ inner, performance.fieldOrNull inner =
        ((j.fieldOrNull "categories").fieldOrNull "performance").fieldOrNull inner := by
      intro inner
      rw [fieldOrNull_of_objectAt hperformance, fieldOrNull_of_objectAt hcategories]
    exact {
      categories := exists_objectAt_iff.1 ⟨_, hcategories⟩
      performance := fieldOrNull_of_objectAt hcategories _ ▸ exists_objectAt_iff.1 ⟨_, hperformance⟩
      score := hfield "score" ▸ exists_percent_iff.1 ⟨_, hscore⟩
      audits := exists_objectAt_iff.1 ⟨_, haudits⟩ }
  · intro h
    obtain ⟨categories, hcategories⟩ := exists_objectAt_iff.2 h.categories
    obtain ⟨performance, hperformance⟩ := exists_objectAt_iff.2
      (fieldOrNull_of_objectAt hcategories "performance" ▸ h.performance)
    have hfield : performance.fieldOrNull "score" =
        ((j.fieldOrNull "categories").fieldOrNull "performance").fieldOrNull "score" := by
      rw [fieldOrNull_of_objectAt hperformance, fieldOrNull_of_objectAt hcategories]
    obtain ⟨score, hscore⟩ := exists_percent_iff.2 (hfield ▸ h.score)
    obtain ⟨audits, haudits⟩ := exists_objectAt_iff.2 h.audits
    exact ⟨_, bind_eq_ok.2 ⟨categories, hcategories, bind_eq_ok.2 ⟨performance, hperformance,
      bind_eq_ok.2 ⟨score, hscore, bind_eq_ok.2 ⟨audits, haudits, rfl⟩⟩⟩⟩⟩

theorem objectAt_failsOnly : FailsOnly (fun f => !f.isOwn) (objectAt j name) := by
  unfold objectAt
  dsimp only
  split
  · simp
  · split <;> simp [AuditFault.isOwn]

theorem percent_failsOnly {score : Json} : FailsOnly (fun f => !f.isOwn) (percent score) := by
  unfold percent
  dsimp only
  split
  · simp
  · split <;> simp [AuditFault.isOwn]
  · simp
  · simp

theorem summary_failsOnly : FailsOnly (fun f => !f.isOwn) (summary j) := by
  unfold summary
  simp [failsOnly_bind, failsOnly_functor_map, objectAt_failsOnly, percent_failsOnly]

theorem ofJson_failsOnly_iff :
    FailsOnly AuditFault.isOwn (ofJson j) ↔ (IsResult j → Summarizable j) := by
  unfold ofJson IsResult
  rw [← exists_summary_iff, ← failsOnly_iff_exists summary_failsOnly, ← Bool.and_eq_true]
  split
  · rename_i h
    rw [failsOnly_map, h]
    simp
  · rename_i h
    simp [h]

/-- The bytes of a file that loading has an answer to: they are UTF-8, the reader takes the document
or finds it malformed, and an audit result can be summarized. -/
def Auditable [Json.Room] (bytes : List UInt8) : Prop :=
  ∃ chars, Text.decodeStrict bytes = .ok chars ∧
    let read := Json.read (String.ofList (Text.unifyBreaks chars))
    read = .error .malformed ∨ ∃ j, read = .ok j ∧ (IsResult j → Summarizable j)

/-- Loading gives findings or says itself why there are none, exactly if the path can be used and
the file has bytes that loading has an answer to. -/
theorem load_accounted_iff [Json.Room] (site : Site) (path : String) :
    ((∃ a, load site path = .ok a) ∨ ∃ f, load site path = .error f ∧ f.isOwn = true) ↔
      (∀ f, site.read path = .error f → ∃ fault p, f = .disk fault p) ∧
        ∀ bytes, site.read path = .ok bytes → Auditable bytes := by
  rw [← failsOnly_iff]
  unfold load Site.readText Auditable
  cases site.read path with
  | error f =>
    cases f with
    | disk fault p => cases fault <;> simp [AuditFault.isOwn]
    | _ => simp [AuditFault.isOwn]
  | ok bytes =>
    simp only [reduceCtorEq, false_implies, implies_true, true_and, Except.ok.injEq, forall_eq']
    cases Text.decodeStrict bytes with
    | error m => simp [AuditFault.isOwn]
    | ok chars =>
      simp only [Except.ok.injEq, exists_eq_left']
      cases Json.read (String.ofList (Text.unifyBreaks chars)) with
      | error f => cases f <;> simp [AuditFault.isOwn]
      | ok j =>
        simp only [Except.ok.injEq, reduceCtorEq, false_or, exists_eq_left']
        split
        · exact ofJson_failsOnly_iff
        · rename_i hobject
          exact iff_of_true (by simp [AuditFault.isOwn]) fun h => absurd h (not_isResult hobject)

namespace Sample

def auditSite (bytes : List UInt8) : Site where
  disk := ⟨.folder [("a.json", .file bytes 0o644)]⟩
  working := "/"
  home := "/"

end Sample

/-- Bytes that are not UTF-8 give no findings, and loading does not say itself why. -/
theorem not_accounted_undecodable : ¬((∃ a, load (Sample.auditSite [0xFF]) "a.json" = .ok a) ∨
    ∃ f, load (Sample.auditSite [0xFF]) "a.json" = .error f ∧ f.isOwn = true) := by
  rw [← failsOnly_iff]
  decide +kernel

end Audit

end PerfReview
