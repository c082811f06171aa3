import PerfReview.Proofs.Json.Reading
import PerfReview.Report.Output
import PerfReview.Standard

/-!
# What a report as a document tells

The findings of a run, as a whole and file by file, its counts and lists and its audit findings are
`Kept` by the JSON form of its report: a reader that looks each of them up by its name finds them
again in what the text is read as. So reports that differ in any of them have different texts. The
reader knows nothing of how the document was built.
-/

namespace PerfReview

namespace Json

variable {α : Type}

/-- The value of a field as `take` has it. -/
def at? (j : Json) (name : String) (take : Json → Option α) : Option α := (j.field? name).bind take

def int? : Json → Option Int
  | .int n => some n
  | _ => none

def bool? : Json → Option Bool
  | .bool b => some b
  | _ => none

def listOf? (take : Json → Option α) (j : Json) : Option (List α) := j.list?.bind (·.mapM take)

def mapOf? (take : Json → Option α) (j : Json) : Option (List (String × α)) :=
  j.object?.bind (·.mapM fun f => (take f.2).map (f.1, ·))

theorem listOf?_echo {take : Json → Option α} {write : α → Json}
    (h : ∀ x, take (write x).echo = some x) (xs : List α) :
    listOf? take (list (echoItems (xs.map write))) = some xs := by
  rw [echoItems_eq_map, List.map_map]
  show (xs.map (echo ∘ write)).mapM take = some xs
  induction xs with
  | nil => rfl
  | cons x xs ih => simp [h, ih]

theorem mapOf?_echo {take : Json → Option α} {write : α → Json}
    (h : ∀ x, take (write x).echo = some x) (fs : List (String × α)) :
    mapOf? take (object (echoFields (fs.map fun f => (f.1, write f.2)))) = some fs := by
  rw [echoFields_eq_map, List.map_map]
  show (fs.map _).mapM _ = some fs
  induction fs with
  | nil => rfl
  | cons f fs ih => simp [h, ih]

end Json

namespace Issue

open Json in
def ofJson? (j : Json) : Option Issue := do
  return {
    severity := ← (j.at? "severity" text?).bind Severity.ofName?
    file := ← j.at? "file" text?
    startLine := ← j.at? "start_line" int?
    endLine := ← j.at? "end_line" int?
    description := ← j.at? "description" text?
    impact := ← j.at? "impact" text?
    codeContext := ← j.at? "code_context" text?
    solution := ← j.at? "solution" text?
    expectedImprovement := ← j.at? "expected_improvement" text? }

theorem ofJson?_echo (i : Issue) : ofJson? i.toJson.echo = some i := by
  have hseverity : Severity.ofName? i.severity.name = some i.severity := by
    cases i.severity <;> rfl
  simp [ofJson?, toJson, Json.echo, Json.echoFields, Json.at?, Json.field?, Assoc.get?_cons,
    Json.text?, Json.int?, hseverity]

end Issue

namespace Findings

open Json in
def ofJson? (j : Json) : Option Findings := do
  return {
    critical := ← j.at? "critical" (listOf? Issue.ofJson?)
    warnings := ← j.at? "warnings" (listOf? Issue.ofJson?)
    suggestions := ← j.at? "suggestions" (listOf? Issue.ofJson?) }

theorem ofJson?_echo (f : Findings) : ofJson? f.toJson.echo = some f := by
  have hlist : ∀ l : List Issue,
      Json.listOf? Issue.ofJson? (.list (Json.echoItems (l.map (·.toJson)))) = some l :=
    Json.listOf?_echo Issue.ofJson?_echo
  simp [ofJson?, toJson, fields, Severity.all, Severity.listName, ofSeverity, Json.echo,
    Json.echoFields, Json.at?, Json.field?, Assoc.get?_cons, hlist]

end Findings

namespace Audit

open Json in
def ofDocument? (j : Json) : Option Audit := do
  return {
    metrics := ← j.at? "metrics" text?
    sections := ← j.at? "analysis" (mapOf? text?) }

theorem ofDocument?_echo (a : Audit) : ofDocument? a.toJson.echo = some a := by
  have hsections : Json.mapOf? Json.text? a.sectionsJson.echo = some a.sections :=
    Json.mapOf?_echo (fun _ => rfl) a.sections
  simp [ofDocument?, toJson, Json.echo, Json.echoFields, Json.at?, Json.field?, Assoc.get?_cons,
    Json.text?, hsections]

end Audit

/-- What a document keeps of a run. -/
structure Kept where
  findings : Findings
  byFile : List (String × Findings)
  skipped : List String
  failed : List String
  batchCount : Int
  rejectedCount : Int
  cancelled : Bool
  target : String
  audit : Option Audit
  deriving DecidableEq, Repr

namespace Kept

open Json in
def ofJson? (j : Json) : Option Kept := do
  let metadata ← j.field? "metadata"
  return {
    findings := ← j.at? "codeAnalysis" Findings.ofJson?
    byFile := ← j.at? "fileIssues" (mapOf? Findings.ofJson?)
    skipped := ← j.at? "skippedFiles" (listOf? text?)
    failed := ← j.at? "failedBatches" (listOf? text?)
    batchCount := ← metadata.at? "batch_count" int?
    rejectedCount := ← metadata.at? "rejected_records" int?
    cancelled := ← metadata.at? "cancelled" bool?
    target := ← metadata.at? "target" text?
    audit := ← ((j.field? "audit").map Audit.ofDocument?).elim (some none) (·.map some) }

end Kept

namespace Report

/-- What a report has to tell of its run. Audit findings that are blank count for none. -/
def kept (r : Report) : Kept where
  findings := r.result.findings
  byFile := r.result.byFile
  skipped := r.result.skipped
  failed := r.result.failed
  batchCount := r.result.batchCount
  rejectedCount := r.result.rejectedCount
  cancelled := r.result.cancelled
  target := r.result.target
  audit := r.findings?

/-- The maps of a report have one value for each key. -/
structure Keyed (r : Report) : Prop where
  byFile : (r.result.byFile.map (·.1)).Nodup
  sections : ∀ a ∈ r.audit, (a.sections.map (·.1)).Nodup

theorem mem_of_findings? {r : Report} {a : Audit} (h : a ∈ r.findings?) : a ∈ r.audit := by
  obtain ⟨h, -⟩ := Option.filter_eq_some_iff.1 h
  exact h

theorem ofJson?_echo (r : Report) : Kept.ofJson? r.toJson.echo = some r.kept := by
  have hbyFile : Json.mapOf? Findings.ofJson? r.byFileJson.echo = some r.result.byFile :=
    Json.mapOf?_echo Findings.ofJson?_echo _
  have htexts : ∀ l, Json.listOf? Json.text? (Json.texts l).echo = some l :=
    Json.listOf?_echo fun _ => rfl
  cases hf : r.findings? <;>
    simp [Kept.ofJson?, toJson, metadata, kept, hf, Json.echo, Json.echoFields, Json.at?,
      Json.field?, Assoc.get?_cons, Json.int?, Json.bool?, Json.text?, Findings.ofJson?_echo,
      hbyFile, htexts, Audit.ofDocument?_echo]

/-! ## The document can be read -/

open Json (Shaped)

theorem shaped_issue (d : Nat) (i : Issue) : Shaped (d + 1) i.toJson :=
  .object (by simp) (by simp)

theorem shaped_list {α : Type} {d : Nat} {write : α → Json} (h : ∀ x, Shaped d (write x))
    (xs : List α) : Shaped (d + 1) (.list (xs.map write)) :=
  .list fun _ hv => by
    obtain ⟨x, -, rfl⟩ := List.mem_map.1 hv
    exact h x

theorem shaped_map {α : Type} {d : Nat} {write : α → Json} (h : ∀ x, Shaped d (write x))
    {fs : List (String × α)} (hn : (fs.map (·.1)).Nodup) :
    Shaped (d + 1) (.object (fs.map fun f => (f.1, write f.2))) := by
  refine .object (by rwa [List.map_map]) fun f hf => ?_
  obtain ⟨x, -, rfl⟩ := List.mem_map.1 hf
  exact h x.2

theorem shaped_findings (d : Nat) (f : Findings) : Shaped (d + 3) f.toJson := by
  have hn : (f.fields.map (·.1)).Nodup :=
    (by decide : (Severity.all.map Severity.listName).Nodup)
  refine .object hn fun p hp => ?_
  obtain ⟨s, -, rfl⟩ := List.mem_map.1 hp
  exact shaped_list (shaped_issue d) _

theorem shaped_texts (d : Nat) (l : List String) : Shaped (d + 1) (Json.texts l) :=
  shaped_list Shaped.text l

@[simp] theorem shaped_amount (d : Nat) (a : Amount) : Shaped d a.toJson := by
  cases a <;> constructor

@[simp] theorem shaped_count (d : Nat) (c : Count) : Shaped d c.toJson := by
  cases c <;> constructor

theorem shaped_limits (d : Nat) (l : Limits) : Shaped (d + 1) l.toJson :=
  .object (by simp [Limits.fields]) (by simp [Limits.fields])

theorem shaped_metadata (d : Nat) (r : Report) : Shaped (d + 2) r.metadata := by
  have hlimits : Shaped (d + 1) ((r.limits.map (·.toJson)).getD .null) := by
    cases r.limits with
    | none => exact .null
    | some l => exact shaped_limits d l
  exact .object (by simp) (by simp [hlimits])

theorem shaped_audit (d : Nat) {a : Audit} (h : (a.sections.map (·.1)).Nodup) :
    Shaped (d + 2) a.toJson := by
  have hsections : Shaped (d + 1) a.sectionsJson := shaped_map Shaped.text h
  exact .object (by simp) (by simp [hsections])

theorem shaped (d : Nat) {r : Report} (h : r.Keyed) : Shaped (d + 5) r.toJson := by
  have hbyFile : Shaped (d + 4) r.byFileJson := shaped_map (shaped_findings d) h.byFile
  have hbase : ∀ f ∈ [("metadata", r.metadata), ("codeAnalysis", r.result.findings.toJson),
      ("fileIssues", r.byFileJson), ("skippedFiles", Json.texts r.result.skipped),
      ("failedBatches", Json.texts r.result.failed)], Shaped (d + 4) f.2 := by
    simp [shaped_metadata, shaped_findings, shaped_texts, hbyFile]
  unfold toJson
  cases hf : r.findings? with
  | none => exact .object (by simp) (by simpa using hbase)
  | some a =>
    have haudit := shaped_audit (d + 2) (h.sections a (mem_of_findings? hf))
    exact .object (by simp) (by simpa [haudit] using hbase)

/-- A report whose integers can be written has a text, which is read as the echo of its document. -/
theorem read_of_writable [Json.Room] {r : Report} (hk : r.Keyed) (hw : r.toJson.Writable) :
    r.render .json = .ok r.document ∧ Json.read r.document = .ok r.toJson.echo := by
  have hshaped : Shaped Json.Room.maxDepth r.toJson := by
    obtain ⟨d, hd⟩ := Nat.exists_eq_add_of_le' (Nat.le_trans (by decide : 5 ≤ 16) Json.Room.enough)
    exact hd ▸ shaped d hk
  refine ⟨?_, Json.read_print hshaped hw⟩
  rw [render, show r.toJson.toValue.isUnwritable = false from hw]
  rfl

theorem writable_of_render {r : Report} {text : String} (h : r.render .json = .ok text) :
    r.toJson.Writable := by
  unfold render at h
  split at h
  · cases h
  · rename_i hw
    simpa [Json.Writable] using hw

/-- The text of a report is a document, and what it tells is what the report has to tell; so a
report with the same text has the same to tell. The integers of the report must be short enough to
be written. -/
theorem read_document [Json.Room] (r : Report) (hk : r.Keyed) (hw : r.toJson.Writable) :
    ∃ text doc, r.render .json = .ok text ∧ Json.read text = .ok doc ∧
      Kept.ofJson? doc = some r.kept ∧
      ∀ r' : Report, r'.Keyed → r'.render .json = .ok text → r'.kept = r.kept := by
  obtain ⟨hrender, hread⟩ := read_of_writable hk hw
  refine ⟨_, _, hrender, hread, ofJson?_echo r, fun r' hk' hrender' => ?_⟩
  obtain ⟨hdocument, hread'⟩ := read_of_writable hk' (writable_of_render hrender')
  have htext : r'.document = r.document := by
    rw [hdocument] at hrender'
    exact Except.ok.inj hrender'
  have hecho : r'.toJson.echo = r.toJson.echo := by
    rw [htext, hread] at hread'
    exact (Except.ok.inj hread').symm
  exact Option.some.inj (by rw [← ofJson?_echo r', hecho, ofJson?_echo r])

/-- A run with quotation marks, a control character and characters beyond ASCII in its findings. -/
def ofSample : Report where
  result := {
    findings := { warnings := [⟨.warning, "src/é\"1\".js", 3, 5, "tab\there", "50 %\x01", "x = '\\n'",
      "🙂", "none"⟩] }
    byFile := [("src/é\"1\".js", { warnings := [⟨.warning, "src/é\"1\".js", 3, 5, "tab\there",
      "50 %\x01", "x = '\\n'", "🙂", "none"⟩] }), ("b.css", {})]
    skipped := ["a/b.ts"]
    failed := ["js 1/2"]
    batchCount := 2
    rejectedCount := 1
    cancelled := true
    target := "/srv/\"app\"" }
  limits := some {}
  audit := some ⟨"Speed: 1.5 s", [("Ü", "slow\nscripts")]⟩
  now := ⟨⟨2024, 5, 6⟩, 7, 8, 9, 0, some 0⟩

theorem read_document_ofSample :
    ∃ text doc, ofSample.render .json = .ok text ∧ Json.read text = .ok doc ∧
      Kept.ofJson? doc = some ofSample.kept ∧
      ∀ r' : Report, r'.Keyed → r'.render .json = .ok text → r'.kept = ofSample.kept :=
  read_document ofSample ⟨by decide, by decide⟩ (by unfold Json.Writable; decide +kernel)

end Report

end PerfReview
