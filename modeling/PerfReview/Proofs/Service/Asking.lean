import PerfReview.Proofs.Json.Fields
import PerfReview.Proofs.Json.Reading
import PerfReview.Proofs.Limits
import PerfReview.Proofs.Number.Finite
import PerfReview.Service
import PerfReview.Session

/-!
# Asking for a review

A review can be asked for on the command line or in an order to the service. The two take limits in
different units and in a different order, and findings of an audit from a file or as they are. Asked
for the same review, they end up with the same limits and the same findings.
-/

namespace PerfReview

/-- A review to ask for. -/
structure Wish where
  path : String
  maxFiles : Option Int := none
  batchSize : Option Int := none
  /-- The greatest size of a file in units of 1024 bytes. -/
  maxSize : Option Int := none
  tokenBudget : Option Int := none
  /-- The time between two batches in milliseconds. -/
  batchDelay : Option Int := none
  audit : Option Audit := none

namespace Wish

variable {w : Wish}

/-- The options that ask for the review and for a JSON report of it. -/
def options (w : Wish) (verbose : Bool) (audit output : Option String) : ScanOptions where
  verbose
  path := some w.path
  maxFiles := w.maxFiles.map some
  batchSize := w.batchSize.map some
  maxSize := w.maxSize.map some
  batchDelay := w.batchDelay.map some
  tokenBudget := w.tokenBudget.map some
  audit
  output
  format := some .json

def delay? (w : Wish) : Option Number.Binary64 :=
  (w.batchDelay.bind Number.Binary64.ofInt?).map Settings.thousandth

def limit (name : String) (v : Option Json) : List (String × Json) := (v.map (name, ·)).toList

/-- The limits that are set, in bytes and seconds. -/
def limits (w : Wish) : List (String × Json) :=
  limit "max_files" (w.maxFiles.map .int) ++ limit "batch_size" (w.batchSize.map .int) ++
    limit "max_file_size" (w.maxSize.map fun n => .int (n * 1024)) ++
    limit "token_budget" (w.tokenBudget.map .int) ++ limit "batch_delay" (w.delay?.map .float)

def order (w : Wish) : Service.Order where
  path := w.path
  limits := w.limits
  includes := none
  ignores := none
  audit := w.audit

/-- The body of a request asks for the review. -/
def AskedBy [Json.Room] [Service.Coercion] (w : Wish) (body : String) : Prop :=
  ∃ j, Service.readBody body = .ok j ∧ Service.Order.ofJson? j = some w.order

theorem askedBy_dense [Json.Room] [Service.Coercion] {j : Json}
    (hj : Json.Shaped Json.Room.maxDepth j) (hw : j.Writable)
    (ho : Service.Order.ofJson? j.echo = some w.order)
    (h : (Text.encode j.dense).isEmpty = false ∧
      (Text.Encoding.ofDocument (Text.encode j.dense)).decode? (Text.encode j.dense) =
        some j.dense.toList ∧ j.dense.toList.head? ≠ some '\uFEFF') : w.AskedBy j.dense := by
  obtain ⟨hempty, hdecode, hmark⟩ := h
  refine ⟨j.echo, ?_, ho⟩
  simp only [Service.readBody, hempty, hdecode, hmark, Bool.false_eq_true, if_false,
    String.ofList_toList, Json.read_dense hj hw]

/-- The delay is a floating-point number. -/
def Timely (w : Wish) : Prop := ∀ ms ∈ w.batchDelay, (Number.Binary64.ofInt? ms).isSome

/-! ## Limits -/

def table (w : Wish) : List (String × Option Json) := [
  ("max_files", w.maxFiles.map .int), ("batch_size", w.batchSize.map .int),
  ("max_file_size", w.maxSize.map fun n => .int (n * 1024)),
  ("token_budget", w.tokenBudget.map .int), ("batch_delay", w.delay?.map .float)]

theorem limits_eq (w : Wish) : w.limits = Assoc.present w.table := by
  simp [limits, limit, table, Assoc.present, List.filterMap_eq_flatMap_toList]

theorem keys_limits (w : Wish) : (w.limits.map (·.1)).Sublist
    ["max_files", "batch_size", "max_file_size", "token_budget", "batch_delay"] := by
  rw [limits_eq]
  exact Assoc.keys_present w.table

theorem nodup_limits (w : Wish) : (w.limits.map (·.1)).Nodup :=
  (keys_limits w).nodup (by decide)

theorem mem_names {c : String × Json} (h : c ∈ w.limits) : c.1 ∈ Limits.names :=
  (show ["max_files", "batch_size", "max_file_size", "token_budget", "batch_delay"] ⊆ Limits.names
    by decide) ((keys_limits w).subset (List.mem_map_of_mem h))

theorem forall_limits {P : Json → Prop} (hcount : ∀ n, P (.int n))
    (hdelay : ∀ x ∈ w.delay?, P (.float x)) : ∀ c ∈ w.limits, P c.2 := by
  have htable : ∀ p ∈ w.table, ∀ j ∈ p.2, P j := by
    simp only [table, List.forall_mem_cons, Option.forall_mem_map, List.not_mem_nil, false_implies,
      implies_true, and_true]
    exact ⟨fun n _ => hcount n, fun n _ => hcount n, fun n _ => hcount _, fun n _ => hcount n,
      hdelay⟩
  intro c hc
  rw [limits_eq] at hc
  exact htable _ (Assoc.mem_present.1 hc) _ rfl

theorem finite_limits (w : Wish) : ∀ c ∈ w.limits, c.2.Finite := by
  refine forall_limits Json.finite_int fun x hx => ?_
  obtain ⟨y, hy, rfl⟩ := Option.map_eq_some_iff.1 hx
  obtain ⟨ms, -, hms⟩ := Option.bind_eq_some_iff.1 hy
  exact Json.finite_float (Settings.thousandth_isFinite hms)

theorem mapM_delayOf (h : w.Timely) :
    (w.batchDelay.map some).mapM Session.delayOf = .ok (w.delay?.map .float) := by
  unfold delay?
  cases hms : w.batchDelay with
  | none => rfl
  | some ms =>
    obtain ⟨x, hx⟩ := Option.isSome_iff_exists.1 (h ms hms)
    simp [Session.delayOf, hx]

/-- The command line sets the limits that an order sets. -/
theorem limitsFor_options (h : w.Timely) (verbose : Bool) (audit output : Option String)
    (l : Limits) : Session.limitsFor (w.options verbose audit output) l =
      (l.override w.limits).mapError .limits := by
  have hcount : ∀ n : Option Int, (n.map some).map (Session.limitOf 1) = n.map .int := by
    intro n
    cases n <;> simp [Session.limitOf]
  have hsize : ∀ n : Option Int,
      (n.map some).map (Session.limitOf 1024) = n.map fun n => .int (n * 1024) := by
    intro n
    cases n <;> simp [Session.limitOf]
  have hperm : w.limits.Perm (limit "max_files" (w.maxFiles.map .int) ++
      (limit "batch_size" (w.batchSize.map .int) ++
      (limit "max_file_size" (w.maxSize.map fun n => .int (n * 1024)) ++
      (limit "batch_delay" (w.delay?.map .float) ++
      limit "token_budget" (w.tokenBudget.map .int))))) := by
    simp only [limits, List.append_assoc]
    exact ((List.perm_append_comm.append_left _).append_left _).append_left _
  rw [Limits.override_perm hperm (nodup_limits w) fun c => mem_names]
  simp only [Session.limitsFor, options, mapM_delayOf h, hcount, hsize, bind, Except.bind,
    List.filterMap_eq_flatMap_toList, List.flatMap_cons, List.flatMap_nil, List.append_nil, limit]

end Wish

/-! ## Findings of an audit -/

namespace Audit

open Service (Order)

theorem sectionsOf_object {fields : List (String × Json)} {sections : List (String × String)}
    (h : fields.mapM (fun f => f.2.text?.map (f.1, ·)) = some sections) :
    sectionsOf (.object fields) = sections := by
  induction fields generalizing sections with
  | nil =>
    cases h
    rfl
  | cons f fields ih =>
    obtain ⟨name, v⟩ := f
    simp only [List.mapM_cons, Option.bind_eq_bind, Option.bind_eq_some_iff,
      Option.map_eq_some_iff] at h
    obtain ⟨_, ⟨text, htext, rfl⟩, rest, hrest, ⟨⟩⟩ := h
    cases Json.text?_eq_some.1 htext
    exact congrArg ((name, text) :: ·) (ih hrest)

/-- The command line reads findings as the service does, unless they look like an audit result. -/
theorem ofJson_of_readAudit {j : Json} {a : Audit} (h : Order.readAudit j = some a)
    (hown : ¬((j.field? "audits").isSome ∧ (j.field? "categories").isSome)) :
    j.isObject = true ∧ ofJson j = .ok a := by
  cases j with
  | object fields =>
    simp only [Order.readAudit, Json.object?, Option.bind_eq_bind, Option.bind_eq_some_iff,
      Option.some.injEq] at h
    obtain ⟨_, rfl, metrics, hmetrics, entries, hentries, sections, hsections, ⟨⟩⟩ := h
    refine ⟨rfl, ?_⟩
    have hfield : ∀ name, (Json.object fields).fieldOrNull name =
        (Assoc.get? fields name).getD .null := fun _ => rfl
    have hsections : sectionsOf ((Json.object fields).fieldOrNull "analysis") = sections := by
      rw [hfield]
      cases he : Assoc.get? fields "analysis" with
      | none =>
        rw [he] at hentries
        cases hentries
        exact Option.some.inj hsections
      | some v =>
        rw [he] at hentries
        cases v with
        | object entries' =>
          cases hentries
          exact sectionsOf_object hsections
        | _ => cases hentries
    rw [ofJson, if_neg (by rwa [Bool.and_eq_true]), hsections, hfield]
    cases hm : Assoc.get? fields "metrics" with
    | none =>
      rw [hm] at hmetrics
      cases Option.some.inj hmetrics
      rfl
    | some v =>
      rw [hm] at hmetrics
      cases Json.text?_eq_some.1 hmetrics
      rfl
  | _ => cases h

/-- The file given for findings holds them in the form that the service takes, or none is given. -/
inductive Told [Json.Room] (site : Site) (given : Option String) : Option Audit → Prop where
  | nothing : Text.filled given = none → Told site given none
  | file {name path text : String} {j : Json} {a : Audit} : Text.filled given = some name →
      site.expand name = .ok path → site.readText path = .ok text → Json.read text = .ok j →
      Order.readAudit j = some a →
      ¬((j.field? "audits").isSome ∧ (j.field? "categories").isSome) → Told site given (some a)

theorem Told.load [Json.Room] {site : Site} {given : Option String} {audit : Option Audit}
    (h : Told site given audit) : ∃ file, (Text.filled given).mapM site.expand = .ok file ∧
      file.mapM (Audit.load site) = .ok audit := by
  cases h with
  | nothing h =>
    rw [h]
    exact ⟨none, rfl, rfl⟩
  | @file name path text j a h hpath htext hj ha hown =>
    obtain ⟨hobject, hread⟩ := ofJson_of_readAudit ha hown
    refine ⟨some path, ?_, ?_⟩
    · rw [h]
      simp [hpath]
    · simp [Audit.load, htext, hj, hobject, hread]

end Audit

end PerfReview
