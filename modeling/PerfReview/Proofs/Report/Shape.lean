import PerfReview.Proofs.Report.Tags

/-!
# What a page depends on

The `Shape` of a report says how many things of each kind its page shows, and nothing of their
texts. Two reports of the same shape have the same page but for the values in it, which are written
with references; so the brackets and the tags of a page depend on the shape alone. The attributes of
the issues name their severities besides.
-/

namespace PerfReview.Report

/-- How much a page shows of audit findings. -/
structure AuditShape where
  cards : Nat
  /-- There are metrics to show where no line makes a card. -/
  hasMetrics : Bool
  sections : Nat
  deriving DecidableEq, Repr

/-- How much a page shows of each kind. -/
structure Shape where
  critical : Nat
  warnings : Nat
  suggestions : Nat
  audit : Option AuditShape
  skipped : Nat
  failed : Nat
  cancelled : Bool
  deriving DecidableEq, Repr

def auditShape (a : Audit) : AuditShape where
  cards := (Page.cards (Text.strip a.metrics)).length
  hasMetrics := Text.strip a.metrics ≠ ""
  sections := a.sections.length

def shape (r : Report) : Shape where
  critical := r.result.findings.critical.length
  warnings := r.result.findings.warnings.length
  suggestions := r.result.findings.suggestions.length
  audit := r.findings?.map auditShape
  skipped := r.result.skipped.length
  failed := r.result.failed.length
  cancelled := r.result.cancelled

/-- The severities of the issues in a list of a report. -/
def severities (r : Report) (s : Severity) : List Severity := (r.issues s).map (·.severity)

namespace Page

/-! ## Lines -/

theorem closes_head : ∀ t ∈ head, closes endsTag t.toList = true := by
  simp only [head, List.forall_mem_cons, List.not_mem_nil, false_implies, implies_true, and_true]
  repeat' apply And.intro
  all_goals
    rw [String.toList_ofList]
    decide

theorem closes_foot : ∀ t ∈ foot, closes endsTag t.toList = true := by
  simp only [foot, List.forall_mem_cons, List.not_mem_nil, false_implies, implies_true, and_true]
  repeat' apply And.intro
  all_goals
    rw [String.toList_ofList]
    decide

theorem hasDetails_congr {r r' : Report}
    (hskipped : r.result.skipped.length = r'.result.skipped.length)
    (hfailed : r.result.failed.length = r'.result.failed.length) : hasDetails r = hasDetails r' := by
  have hempty : ∀ xs ys : List String, xs.length = ys.length → xs.isEmpty = ys.isEmpty := by
    intro xs ys h
    cases xs <;> cases ys <;> simp_all
  rw [hasDetails, hasDetails, hempty _ _ hskipped, hempty _ _ hfailed]

section
variable {p : Char → Bool} (hp : ∀ c, endsTag c = true → p c = true)
include hp

theorem closes_line {t : String} (h : closes endsTag t.toList = true) :
    closes p (t ++ "\n").toList = true := by
  rw [String.toList_append]
  exact closes_mono hp (closes_append h (closes_of_notMem (by simp)))

theorem agree_line {t : String} (h : closes endsTag t.toList = true) :
    Agree p (line t) (line t) := .markup (closes_line hp h) .nil

theorem agree_lines {ls : List String} (h : ∀ t ∈ ls, closes endsTag t.toList = true) :
    Agree p (lines ls) (lines ls) := by
  induction ls with
  | nil => exact .nil
  | cons t ls ih =>
    obtain ⟨ht, hls⟩ := List.forall_mem_cons.1 h
    exact (agree_line hp ht).append (ih hls)

theorem agree_filled {before after : String} (hbefore : closes endsTag before.toList = true)
    (hafter : closes endsTag after.toList = true) (v v' : String) :
    Agree p (filled before v after) (filled before v' after) :=
  .markup (closes_mono hp hbefore) (.value (.markup (closes_line hp hafter) .nil))

/-- A line with the name of a severity in its tag. -/
theorem agree_named {before : String} {s s' : Severity}
    (hbefore : closes (· = ' ') before.toList = true)
    (hwhole : ∀ s : Severity, closes endsTag
      (before.toList ++ Fragment.escape s.name.toList ++ ("\">" ++ "\n").toList) = true)
    (h : p ' ' = true ∨ s = s') :
    Agree p (filled before s.name "\">") (filled before s'.name "\">") := by
  rcases h with h | rfl
  · have hspace : ∀ c, decide (c = ' ') = true → p c = true := fun c hc => by
      rw [of_decide_eq_true hc, h]
    refine .markup (closes_mono hspace hbefore) (.value (.markup (closes_line hp ?_) .nil))
    exact closes_of_notMem (by simp)
  · exact .inside (closes_mono hp (hwhole s)) .nil

theorem agree_end : Agree p (lines ["    </div>", ""]) (lines ["    </div>", ""]) := by
  refine agree_lines hp (List.forall_mem_cons.2 ⟨?_, List.forall_mem_singleton.2 ?_⟩)
  all_goals
    rw [String.toList_ofList]
    decide

/-! ## Parts of the page -/

variable {r r' : Report}

theorem agree_header (hcancelled : r.result.cancelled = r'.result.cancelled) :
    Agree p (header r) (header r') := by
  unfold header
  rw [hcancelled]
  refine (((((((agree_lines hp ?top).append (agree_filled hp ?_ ?_ _ _)).append
    (agree_filled hp ?_ ?_ _ _)).append (agree_filled hp ?_ ?_ _ _)).append
    (agree_filled hp ?_ ?_ _ _)).append (agree_line hp ?_)).append ?notice).append (agree_end hp)
  case top =>
    simp only [List.forall_mem_cons, List.not_mem_nil, false_implies, implies_true, and_true]
    repeat' apply And.intro
    all_goals
      rw [String.toList_ofList]
      decide
  case notice =>
    split
    · refine agree_filled hp ?_ ?_ _ _
      all_goals
        rw [String.toList_ofList]
        decide
    · exact .nil
  all_goals
    rw [String.toList_ofList]
    decide

theorem agree_summary : Agree p (summary r) (summary r') := by
  refine ((agree_line hp ?_).append (Agree.flatMap_self (fun s => ?card) _)).append (agree_end hp)
  case card =>
    refine (((agree_named hp ?_ (fun s => ?_) (.inr rfl)).append (agree_filled hp ?_ ?_ _ _)).append
      (agree_filled hp ?_ ?_ _ _)).append (agree_line hp ?_)
    case refine_2 =>
      cases s <;> decide +kernel
    all_goals
      rw [String.toList_ofList]
      decide
  rw [String.toList_ofList]
  decide

theorem agree_tabs (hdetails : hasDetails r = hasDetails r')
    (hfindings : r.findings?.isSome = r'.findings?.isSome) : Agree p (tabs r) (tabs r') := by
  unfold tabs
  rw [hdetails, hfindings]
  refine ((((agree_line hp ?_).append (agree_filled hp ?_ ?_ _ _)).append ?audit).append
    ?details).append (agree_end hp)
  case audit =>
    split
    · refine agree_line hp ?_
      rw [String.toList_ofList]
      decide
    · exact .nil
  case details =>
    split
    · refine agree_line hp ?_
      rw [String.toList_ofList]
      decide
    · exact .nil
  all_goals
    rw [String.toList_ofList]
    decide

theorem agree_issue {i j : Issue} (h : p ' ' = true ∨ i.severity = j.severity) :
    Agree p (issue i) (issue j) := by
  refine (((((((agree_named hp ?_ (fun s => ?_) h).append ?location).append
    (agree_filled hp ?_ ?_ _ _)).append (agree_filled hp ?_ ?_ _ _)).append
    (agree_filled hp ?_ ?_ _ _)).append (agree_filled hp ?_ ?_ _ _)).append
    (agree_filled hp ?_ ?_ _ _)).append (agree_line hp ?_)
  case refine_2 =>
    cases s <;> decide +kernel
  case location =>
    refine .markup (closes_mono hp ?_) (.value (.markup (closes_mono hp ?_) (.value (.markup
      (closes_mono hp ?_) .nil))))
    all_goals
      rw [String.toList_ofList]
      decide
  all_goals
    rw [String.toList_ofList]
    decide

theorem agree_severitySection {s : Severity} (hlength : (r.issues s).length = (r'.issues s).length)
    (h : p ' ' = true ∨ r.severities s = r'.severities s) :
    Agree p (severitySection r s) (severitySection r' s) := by
  unfold severitySection
  refine (agree_filled hp ?_ ?_ _ _).append ?listed
  case listed =>
    unfold severities at h
    cases hr : r.issues s with
    | nil =>
      rw [hr, List.length_nil] at hlength
      rw [List.eq_nil_of_length_eq_zero hlength.symm]
      refine agree_filled hp ?_ ?_ _ _
      all_goals
        rw [String.toList_ofList]
        decide
    | cons i is =>
      cases hr' : r'.issues s with
      | nil =>
        rw [hr, hr'] at hlength
        cases hlength
      | cons j js =>
        rw [hr, hr'] at hlength h
        rcases h with h | h
        · exact .flatMap_of_length (fun _ _ => agree_issue hp (.inl h)) hlength
        · exact .flatMap (fun _ _ e => agree_issue hp (.inr e)) h
  all_goals
    rw [String.toList_ofList]
    decide

theorem agree_findings (hlength : ∀ s, (r.issues s).length = (r'.issues s).length)
    (h : p ' ' = true ∨ ∀ s, r.severities s = r'.severities s) :
    Agree p (findings r) (findings r') := by
  have hsections : Agree p (Severity.all.flatMap (severitySection r))
      (Severity.all.flatMap (severitySection r')) :=
    .flatMap_self (fun s => agree_severitySection hp (hlength s) (h.imp_right (· s))) _
  refine ((agree_line hp ?_).append hsections).append (agree_end hp)
  rw [String.toList_ofList]
  decide

theorem agree_card (t v t' v' : String) : Agree p (card t v) (card t' v') := by
  refine (((agree_line hp ?_).append (agree_filled hp ?_ ?_ _ _)).append
    (agree_filled hp ?_ ?_ _ _)).append (agree_line hp ?_)
  all_goals
    rw [String.toList_ofList]
    decide

theorem agree_metrics {t t' : String} (hcards : (cards t).length = (cards t').length)
    (hempty : t = "" ↔ t' = "") : Agree p (metrics t) (metrics t') := by
  unfold metrics
  cases hc : cards t with
  | nil =>
    rw [hc, List.length_nil] at hcards
    rw [List.eq_nil_of_length_eq_zero hcards.symm]
    by_cases ht : t = ""
    · simp only [ht, hempty.1 ht, List.isEmpty_nil, Bool.not_true, ne_eq, not_true_eq_false]
      exact .nil
    · simp only [ht, mt hempty.2 ht, List.isEmpty_nil, Bool.not_true, ne_eq, not_false_eq_true]
      refine agree_filled hp ?_ ?_ _ _
      all_goals
        rw [String.toList_ofList]
        decide
  | cons c cs =>
    cases hc' : cards t' with
    | nil =>
      rw [hc, hc'] at hcards
      cases hcards
    | cons c' cs' =>
      rw [hc, hc'] at hcards
      refine ((agree_line hp ?_).append
        (.flatMap_of_length (fun _ _ => agree_card hp _ _ _ _) hcards)).append (agree_line hp ?_)
      all_goals
        rw [String.toList_ofList]
        decide

theorem agree_auditSection (n t n' t' : String) :
    Agree p (auditSection n t) (auditSection n' t') := by
  refine (((agree_line hp ?_).append (agree_filled hp ?_ ?_ _ _)).append
    (agree_filled hp ?_ ?_ _ _)).append (agree_line hp ?_)
  all_goals
    rw [String.toList_ofList]
    decide

theorem agree_audit {a a' : Audit} (h : auditShape a = auditShape a') :
    Agree p (audit a) (audit a') := by
  obtain ⟨hcards, hmetrics, hsections⟩ := AuditShape.mk.inj h
  refine (((agree_line hp ?_).append (agree_metrics hp hcards ?empty)).append
    (.flatMap_of_length (fun _ _ => agree_auditSection hp _ _ _ _) hsections)).append
    (agree_line hp ?_)
  case empty =>
    simpa using hmetrics
  all_goals
    rw [String.toList_ofList]
    decide

theorem agree_list {title : String} {item : String → List Fragment} {xs ys : List String}
    (hitem : ∀ x y, Agree p (item x) (item y)) (hlength : xs.length = ys.length) :
    Agree p (list title item xs) (list title item ys) := by
  unfold list
  cases xs with
  | nil =>
    rw [List.eq_nil_of_length_eq_zero hlength.symm]
    exact .nil
  | cons x xs =>
    cases ys with
    | nil => cases hlength
    | cons y ys =>
      refine (((agree_filled hp ?_ ?_ _ _).append (agree_line hp ?_)).append
        (.flatMap_of_length hitem hlength)).append (agree_line hp ?_)
      all_goals
        rw [String.toList_ofList]
        decide

theorem agree_details (hskipped : r.result.skipped.length = r'.result.skipped.length)
    (hfailed : r.result.failed.length = r'.result.failed.length) :
    Agree p (details r) (details r') := by
  refine (((agree_line hp ?_).append (agree_list hp (fun x y => ?skipped) hskipped)).append
    (agree_list hp (fun x y => ?failed) hfailed)).append (agree_line hp ?_)
  case skipped =>
    refine agree_filled hp ?_ ?_ _ _
    all_goals
      rw [String.toList_ofList]
      decide
  case failed =>
    refine agree_filled hp ?_ ?_ _ _
    all_goals
      rw [String.toList_ofList]
      decide
  all_goals
    rw [String.toList_ofList]
    decide

theorem agree_body (hshape : r.shape = r'.shape)
    (h : p ' ' = true ∨ ∀ s, r.severities s = r'.severities s) : Agree p (body r) (body r') := by
  obtain ⟨hcritical, hwarnings, hsuggestions, haudit, hskipped, hfailed, hcancelled⟩ :=
    Shape.mk.inj hshape
  have hlength : ∀ s, (r.issues s).length = (r'.issues s).length := by
    intro s
    cases s with
    | critical => exact hcritical
    | warning => exact hwarnings
    | suggestion => exact hsuggestions
  have hdetails := hasDetails_congr hskipped hfailed
  have hfindings : r.findings?.isSome = r'.findings?.isSome := by
    rw [← Option.isSome_map (f := auditShape), haudit, Option.isSome_map]
  have haudits : Agree p (r.findings?.toList.flatMap audit) (r'.findings?.toList.flatMap audit) := by
    refine .flatMap (k := auditShape) (fun _ _ e => agree_audit hp e) ?_
    rw [← Option.toList_map, haudit, Option.toList_map]
  have hdetails' : Agree p (if hasDetails r then details r else [])
      (if hasDetails r' then details r' else []) := by
    rw [hdetails]
    split
    · exact agree_details hp hskipped hfailed
    · exact .nil
  refine (((((((((agree_header hp hcancelled).append (agree_summary hp)).append
    (agree_tabs hp hdetails hfindings)).append (agree_findings hp hlength h)).append haudits).append
    (agree_line hp ?_)).append hdetails').append (agree_line hp ?_)).append (agree_line hp ?_)).append
    (agree_lines hp closes_foot)
  all_goals
    rw [String.toList_ofList]
    decide

end

end Page

variable {r r' : Report}

theorem agree_page {p : Char → Bool} (hp : ∀ c, endsTag c = true → p c = true)
    (hshape : r.shape = r'.shape) (h : p ' ' = true ∨ ∀ s, r.severities s = r'.severities s) :
    Agree p r.page r'.page :=
  (Page.agree_lines hp Page.closes_head).append (Page.agree_body hp hshape h)

/-! ## The texts of a report -/

/-- The texts of an issue that a page shows. -/
def issueTexts (i : Issue) : List String :=
  [i.location, i.description, i.impact, i.codeContext, i.solution, i.expectedImprovement]

/-- The texts of audit findings that a page shows: the metrics as cards where there are some. -/
def auditTexts (a : Audit) : List String :=
  let metrics := Text.strip a.metrics
  (if (Page.cards metrics).isEmpty && metrics ≠ "" then [metrics] else []) ++
    ((Page.cards metrics).flatMap fun (title, value) => [title, value]) ++
    a.sections.flatMap fun (name, text) => [name, text]

/-- The texts of a report that come from the files, the model or the audit. -/
def texts (r : Report) : List String :=
  r.result.target :: (Severity.all.flatMap r.issues).flatMap issueTexts ++
    r.findings?.toList.flatMap auditTexts ++ r.result.skipped ++ r.result.failed

theorem mem_values {v : String} {fs : List Fragment} : v ∈ values fs ↔ .value v ∈ fs := by
  rw [values, List.mem_filterMap]
  constructor
  · rintro ⟨f, hf, e⟩
    cases f with
    | markup m => cases e
    | value w =>
      cases e
      exact hf
  · exact fun h => ⟨_, h, rfl⟩

theorem mem_issue {i : Issue} {t : String} (h : t ∈ issueTexts i) : .value t ∈ Page.issue i := by
  rw [← mem_values]
  have hvalues : values (Page.issue i) = i.severity.name :: i.severity.marker :: issueTexts i := rfl
  rw [hvalues]
  exact List.mem_cons_of_mem _ (List.mem_cons_of_mem _ h)

theorem mem_findings {s : Severity} {i : Issue} (hi : i ∈ r.issues s) {t : String}
    (h : t ∈ issueTexts i) : .value t ∈ Page.findings r := by
  have hsection : .value t ∈ Page.severitySection r s := by
    unfold Page.severitySection
    refine List.mem_append_right _ ?_
    cases hr : r.issues s with
    | nil =>
      rw [hr] at hi
      cases hi
    | cons j js =>
      rw [hr] at hi
      exact List.mem_flatMap.2 ⟨i, hi, mem_issue h⟩
  refine List.mem_append_left _ (List.mem_append_right _ ?_)
  exact List.mem_flatMap.2 ⟨s, Severity.mem_all s, hsection⟩

theorem mem_metrics {m t : String}
    (h : (t = m ∧ (Page.cards m).isEmpty = true ∧ m ≠ "") ∨
      ∃ c ∈ Page.cards m, t = c.1 ∨ t = c.2) : .value t ∈ Page.metrics m := by
  unfold Page.metrics
  rcases h with ⟨rfl, hcards, hne⟩ | ⟨c, hc, ht⟩
  · simp [hcards, hne, Page.filled]
  · have hcards : (Page.cards m).isEmpty = false := by
      rw [List.isEmpty_eq_false_iff]
      exact List.ne_nil_of_mem hc
    have hcard : .value t ∈ Page.card c.1 c.2 := by
      rcases ht with rfl | rfl <;> simp [Page.card, Page.filled]
    rw [hcards]
    refine List.mem_append_left _ (List.mem_append_right _ ?_)
    exact List.mem_flatMap.2 ⟨c, hc, hcard⟩

theorem mem_audit {a : Audit} {t : String} (h : t ∈ auditTexts a) : .value t ∈ Page.audit a := by
  unfold auditTexts at h
  rw [List.append_assoc, List.mem_append, List.mem_append] at h
  rcases h with h | h | h
  · have hwhole : t = Text.strip a.metrics ∧ (Page.cards (Text.strip a.metrics)).isEmpty = true ∧
        Text.strip a.metrics ≠ "" := by
      split at h
      · simp_all
      · cases h
    exact List.mem_append_left _ (List.mem_append_left _
      (List.mem_append_right _ (mem_metrics (.inl hwhole))))
  · obtain ⟨c, hc, ht⟩ := List.mem_flatMap.1 h
    have hpart : t = c.1 ∨ t = c.2 := by simpa using ht
    exact List.mem_append_left _ (List.mem_append_left _
      (List.mem_append_right _ (mem_metrics (.inr ⟨c, hc, hpart⟩))))
  · obtain ⟨c, hc, ht⟩ := List.mem_flatMap.1 h
    have hpart : t = c.1 ∨ t = c.2 := by simpa using ht
    refine List.mem_append_left _ (List.mem_append_right _ (List.mem_flatMap.2 ⟨c, hc, ?_⟩))
    rcases hpart with rfl | rfl <;> simp [Page.auditSection, Page.filled]

theorem mem_list {title : String} {item : String → List Fragment} {xs : List String} {t : String}
    (ht : t ∈ xs) (hitem : .value t ∈ item t) : .value t ∈ Page.list title item xs := by
  unfold Page.list
  rw [if_neg (by simpa using List.ne_nil_of_mem ht)]
  exact List.mem_append_left _ (List.mem_append_right _ (List.mem_flatMap.2 ⟨t, ht, hitem⟩))

theorem mem_details {t : String} (h : t ∈ r.result.skipped ∨ t ∈ r.result.failed) :
    Page.hasDetails r = true ∧ .value t ∈ Page.details r := by
  rcases h with h | h
  · refine ⟨by simp [Page.hasDetails, List.ne_nil_of_mem h], ?_⟩
    exact List.mem_append_left _ (List.mem_append_left _
      (List.mem_append_right _ (mem_list h (by simp [Page.filled]))))
  · refine ⟨by simp [Page.hasDetails, List.ne_nil_of_mem h], ?_⟩
    exact List.mem_append_left _ (List.mem_append_right _ (mem_list h (by simp [Page.filled])))

/-- No text of a report is left out of its page. -/
theorem texts_subset (r : Report) : r.texts ⊆ values r.page := by
  intro t ht
  rw [mem_values]
  simp only [texts, List.mem_cons, List.mem_append, List.mem_flatMap, or_assoc] at ht
  simp only [page, Page.body, List.mem_append]
  rcases ht with rfl | ⟨i, ⟨s, -, hi⟩, ht⟩ | ⟨a, ha, ht⟩ | hdetails
  · have hheader : .value r.result.target ∈ Page.header r := by simp [Page.header, Page.filled]
    simp [hheader]
  · simp [mem_findings hi ht]
  · have haudit : .value t ∈ r.findings?.toList.flatMap Page.audit :=
      List.mem_flatMap.2 ⟨a, ha, mem_audit ht⟩
    simp only [haudit, true_or, or_true]
  · obtain ⟨hhas, hmem⟩ := mem_details hdetails
    simp [hhas, hmem]

/-! ## Pages of reports of the same shape -/

/-- The pages have the same markup. -/
structure SameMarkup (r r' : Report) : Prop where
  /-- All that is no value is the same. -/
  skeleton : skeleton r.page = skeleton r'.page
  /-- The brackets are the same, in the same order. -/
  brackets : r.html.toList.filter isBracket = r'.html.toList.filter isBracket
  /-- The tags have the same names, in the same order. -/
  tagNames : tagNames r.html = tagNames r'.html
  /-- The tags are the same with their attributes if the severities of the issues are. -/
  tags : (∀ s, r.severities s = r'.severities s) → tags r.html = tags r'.html

theorem sameMarkup_of_shape (h : r.shape = r'.shape) : SameMarkup r r' := by
  have hname : ∀ c, endsTag c = true → endsName c = true := fun c hc => by
    rw [endsName, of_decide_eq_true hc]
    rfl
  have hnames : Agree endsName r.page r'.page := agree_page hname h (.inl (by decide))
  exact ⟨hnames.skeleton_eq, hnames.brackets_eq, hnames.tags_eq,
    fun hs => (agree_page (fun _ hc => hc) h (.inr hs)).tags_eq⟩

/-- A page is its markup with the values of the report between, written with references that read as
the values; none of the texts of the report is left out, and all else depends on the shape of the
report alone. -/
theorem html_sealed (r : Report) :
    r.html.toList =
      fill (skeleton r.page) ((values r.page).map fun v => Fragment.escape v.toList) ∧
    r.texts ⊆ values r.page ∧
    (∀ v ∈ values r.page, unescape (Fragment.escape v.toList) = v.toList) ∧
    ∀ r' : Report, r.shape = r'.shape → SameMarkup r r' :=
  ⟨toList_joined r.page, texts_subset r, fun v _ => unescape_escape v.toList,
    fun _ h => sameMarkup_of_shape h⟩

namespace Sample

def noon : Moment := ⟨⟨2024, 5, 1⟩, 12, 0, 0, 0, some 0⟩

def plain : Report where
  result :=
    { findings := { critical := [⟨.critical, "a.js", 1, 2, "slow", "waits", "f()", "g()", "fast"⟩] }
      skipped := ["b.js"]
      target := "/p" }
  audit := some ⟨"Score: 61", [("Notes", "long tasks")]⟩
  now := noon

/-- The same amounts, with texts that would be tags. -/
def hostile : Report where
  result :=
    { findings := { critical := [⟨.critical, "</p>.js", 1, 2, "<script>", "<!--", "</code>", "'>", "&lt;"⟩] }
      skipped := ["<ul>"]
      target := "</title>" }
  audit := some ⟨"<b>: \"</b>\"", [("</h3>", "-->")]⟩
  now := noon

end Sample

theorem html_sealed_hostile : Sample.hostile.shape = Sample.plain.shape ∧
    "<script>" ∈ values Sample.hostile.page ∧
    unescape (Fragment.escape "<script>".toList) = "<script>".toList ∧
    SameMarkup Sample.hostile Sample.plain := by
  have hshape : Sample.hostile.shape = Sample.plain.shape := by decide +kernel
  obtain ⟨-, htexts, hread, hmarkup⟩ := html_sealed Sample.hostile
  have hmem : "<script>" ∈ values Sample.hostile.page := htexts (by decide +kernel)
  exact ⟨hshape, hmem, hread _ hmem, hmarkup _ hshape⟩

end PerfReview.Report
