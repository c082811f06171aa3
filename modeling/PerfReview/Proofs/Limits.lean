import PerfReview.Proofs.Assoc
import PerfReview.Proofs.Json.Forms
import PerfReview.Proofs.Settings

/-!
# Changed limits

Limits are changed name by name, so the order of the changes makes no difference. What is told of a
change that is no limit can be written if the change can be, and limits are finite if all changes
are.
-/

namespace PerfReview

namespace Assoc

variable {α β : Type} [DecidableEq α] {m changes : List (α × β)}

/-- A map in which values have been put has these where there is one. -/
theorem get?_puts (hn : (changes.map (·.1)).Nodup) (m : List (α × β)) (k : α) :
    get? (changes.foldl (fun m c => put c.1 c.2 m) m) k = (get? changes k).or (get? m k) := by
  induction changes generalizing m with
  | nil => rfl
  | cons c cs ih =>
    obtain ⟨k', v⟩ := c
    obtain ⟨hnot, hn⟩ := List.nodup_cons.1 hn
    rw [List.foldl_cons, ih hn, get?_cons]
    by_cases h : k' = k
    · subst h
      rw [get?_eq_none hnot, get?_put_self, if_pos rfl]
      rfl
    · rw [get?_put_of_ne m v h, if_neg h]

theorem mem_puts {p : α × β} (h : p ∈ changes.foldl (fun m c => put c.1 c.2 m) m) :
    p ∈ changes ∨ p ∈ m := by
  induction changes generalizing m with
  | nil => exact .inr h
  | cons c cs ih =>
    rcases ih h with h | h
    · exact .inl (List.mem_cons_of_mem _ h)
    · rcases mem_put h with rfl | h
      · exact .inl (List.mem_cons_self ..)
      · exact .inr h

end Assoc

theorem Amount.ofJson?_toJson (a : Amount) : ofJson? a.toJson = some a := by cases a <;> rfl

theorem Amount.toJson_injective {a b : Amount} (h : a.toJson = b.toJson) : a = b :=
  Option.some.inj (by rw [← ofJson?_toJson a, h, ofJson?_toJson])

namespace Limits

open Settings (bind_eq_ok)

variable {l : Limits} {cs cs' fs fs' : List (String × Json)}

theorem check_congr (h : ∀ name, Assoc.get? fs name = Assoc.get? fs' name) :
    check fs = check fs' := by
  simp only [check, count, delay, h]

/-- The value that a change sets; null sets none. -/
def sets (c : String × Json) : Bool := match c.2 with | .null => false | _ => true

theorem override_eq (hnames : ∀ c ∈ cs, c.1 ∈ names) : l.override cs =
    check ((cs.filter sets).foldl (fun fs c => Assoc.put c.1 c.2 fs) l.fields) := by
  have hknown : (cs.filter sets).find? (fun c => decide (c.1 ∉ names)) = none :=
    List.find?_eq_none.2 fun c hc => by simpa using hnames c (List.mem_of_mem_filter hc)
  show l.replace (cs.filter sets) = _
  unfold replace
  rw [hknown]

theorem override_nil (hl : l.batchDelay.isNegative = false) : l.override [] = .ok l := by
  simp [override, replace, check, count, delay, fields, Assoc.get?_cons, Count.ofJson?_toJson,
    Amount.ofJson?_toJson, hl]
  rfl

theorem get?_fields_delay (l : Limits) :
    Assoc.get? l.fields "batch_delay" = some l.batchDelay.toJson := by
  simp [fields, Assoc.get?_cons]

/-- A table of limits that may be set: each stands there once, and none is set to null. -/
structure Settable (ps : List (String × Option Json)) : Prop where
  names : ∀ p ∈ ps, p.1 ∈ names
  nodup : (ps.map (·.1)).Nodup
  sets : ∀ p ∈ ps, p.2 ≠ some .null

/-- Limits are changed by testing the values of a table, and those so far where it has none. -/
theorem Settable.override_eq {ps : List (String × Option Json)} (h : Settable ps) (l : Limits) :
    ∃ fs, l.override (Assoc.present ps) = check fs ∧ ∀ name, Assoc.get? fs name =
      (Assoc.get? ps name).join.or (Assoc.get? l.fields name) := by
  have hnames : ∀ c ∈ Assoc.present ps, c.1 ∈ Limits.names := fun c hc =>
    h.names _ (Assoc.mem_present.1 hc)
  have hsets : (Assoc.present ps).filter Limits.sets = Assoc.present ps := by
    refine List.filter_eq_self.2 fun c hc => ?_
    have hnull : c.2 ≠ .null := fun e => h.sets _ (Assoc.mem_present.1 hc) (congrArg some e)
    unfold Limits.sets
    split
    · rename_i e
      exact absurd e hnull
    · rfl
  refine ⟨_, Limits.override_eq hnames, fun name => ?_⟩
  rw [hsets, Assoc.get?_puts (h.nodup.sublist (Assoc.keys_present ps)), Assoc.get?_present h.nodup]

/-- The order of changes makes no difference. -/
theorem override_perm (h : cs.Perm cs') (hn : (cs.map (·.1)).Nodup)
    (hnames : ∀ c ∈ cs, c.1 ∈ names) : l.override cs = l.override cs' := by
  have hfilter := h.filter sets
  have hnodup : ((cs.filter sets).map (·.1)).Nodup := hn.sublist (List.filter_sublist.map _)
  rw [override_eq hnames, override_eq fun c hc => hnames c (h.mem_iff.2 hc)]
  refine check_congr fun name => ?_
  rw [Assoc.get?_puts hnodup, Assoc.get?_puts ((hfilter.map _).nodup_iff.1 hnodup),
    Assoc.get?_perm hfilter hnodup]

/-- What holds of the limits, of every change and of null holds of the values that are tested. -/
theorem forall_changed {P : Json → Prop} (hnull : P .null) (hl : ∀ f ∈ l.fields, P f.2)
    (hcs : ∀ c ∈ cs, P c.2) (name : String) : P ((Assoc.get?
      ((cs.filter sets).foldl (fun fs c => Assoc.put c.1 c.2 fs) l.fields) name).getD .null) := by
  cases hv : Assoc.get?
      ((cs.filter sets).foldl (fun fs c => Assoc.put c.1 c.2 fs) l.fields) name with
  | none => exact hnull
  | some v =>
    rcases Assoc.mem_puts (Assoc.mem_of_get?_eq_some hv) with h | h
    · exact hcs _ (List.mem_of_mem_filter h)
    · exact hl _ h

theorem bind_ne_error {ε α β : Type} {x : Except ε α} {f : α → Except ε β} {e : ε}
    (hx : x ≠ .error e) (hf : ∀ a, f a ≠ .error e) : (x >>= f) ≠ .error e := by
  cases x with
  | error e' => exact fun h => hx (congrArg Except.error (Except.error.inj h))
  | ok a => exact hf a

/-- A fault of changes that can be written can be told. -/
theorem override_ne_unwritable (hnames : ∀ c ∈ cs, c.1 ∈ names)
    (hl : ∀ f ∈ l.fields, f.2.Writable) (hcs : ∀ c ∈ cs, c.2.Writable) :
    l.override cs ≠ .error .unwritable := by
  have hvalues := forall_changed (show Json.null.Writable from rfl) hl hcs
  rw [override_eq hnames]
  generalize (cs.filter sets).foldl (fun fs c => Assoc.put c.1 c.2 fs) l.fields = fs at hvalues
  have hcount : ∀ name, count fs name ≠ .error .unwritable := fun name => by
    have hv : ((Assoc.get? fs name).getD .null).toValue.isUnwritable = false := hvalues name
    unfold count
    dsimp only
    split
    · simp
    · simp [LimitsFault.notPositiveOr, hv]
  have hdelay : delay fs ≠ .error .unwritable := by
    have hv : ((Assoc.get? fs "batch_delay").getD .null).toValue.isUnwritable = false :=
      hvalues "batch_delay"
    unfold delay
    dsimp only
    split
    · simp
    · split
      · simp [LimitsFault.negativeDelayOr, hv]
      · simp
  refine bind_ne_error (hcount _) fun _ => bind_ne_error (hcount _) fun _ => ?_
  refine bind_ne_error (hcount _) fun _ => bind_ne_error (hcount _) fun _ => ?_
  exact bind_ne_error hdelay fun _ => by simp [pure, Except.pure]

theorem finite_count (c : Count) : c.toJson.Finite := by cases c <;> rfl

theorem toJson_of_delay {a : Amount} (h : delay fs = .ok a) :
    a.toJson = (Assoc.get? fs "batch_delay").getD .null := by
  unfold delay at h
  generalize (Assoc.get? fs "batch_delay").getD .null = v at h
  cases v with
  | null | text | list | object => cases h
  | int | float | bool =>
    dsimp only [Amount.ofJson?] at h
    split at h
    · cases h
    · cases h
      rfl

theorem isNegative_of_delay {a : Amount} (h : delay fs = .ok a) : a.isNegative = false := by
  unfold delay at h
  dsimp only at h
  split at h
  · cases h
  · split at h
    · cases h
    · rename_i hnot
      cases h
      simpa using hnot

theorem delay_of_check {l' : Limits} (h : check fs = .ok l') : delay fs = .ok l'.batchDelay := by
  obtain ⟨maxFiles, -, h⟩ := bind_eq_ok.1 h
  obtain ⟨batchSize, -, h⟩ := bind_eq_ok.1 h
  obtain ⟨maxFileSize, -, h⟩ := bind_eq_ok.1 h
  obtain ⟨tokenBudget, -, h⟩ := bind_eq_ok.1 h
  obtain ⟨batchDelay, hdelay, h⟩ := bind_eq_ok.1 h
  cases h
  exact hdelay

/-- The delay of changed limits is the one that is set, or the one so far. -/
theorem Settable.delay_eq {ps : List (String × Option Json)} (h : Settable ps) {l' : Limits}
    {delay : Option Number.Binary64}
    (hdelay : (Assoc.get? ps "batch_delay").join = delay.map Json.float)
    (ho : l.override (Assoc.present ps) = .ok l') :
    l'.batchDelay = (delay.map Amount.real).getD l.batchDelay ∧
      l'.batchDelay.isNegative = false := by
  obtain ⟨fs, hfs, hget⟩ := h.override_eq l
  have hd := delay_of_check (hfs.symm.trans ho)
  refine ⟨Amount.toJson_injective ?_, isNegative_of_delay hd⟩
  rw [toJson_of_delay hd, hget, hdelay, get?_fields_delay]
  cases delay <;> rfl

theorem finite_of_override {l' : Limits} (hnames : ∀ c ∈ cs, c.1 ∈ names)
    (hl : ∀ f ∈ l.fields, f.2.Finite) (hcs : ∀ c ∈ cs, c.2.Finite)
    (h : l.override cs = .ok l') : l'.toJson.Finite := by
  have hvalues := forall_changed Json.finite_null hl hcs
  rw [override_eq hnames] at h
  generalize (cs.filter sets).foldl (fun fs c => Assoc.put c.1 c.2 fs) l.fields = fs at hvalues h
  have hfinite : l'.batchDelay.toJson.Finite :=
    toJson_of_delay (delay_of_check h) ▸ hvalues "batch_delay"
  exact .object (by simp [fields, finite_count, hfinite])

theorem writable_standard : ∀ f ∈ ({} : Limits).fields, f.2.Writable := by
  simp only [fields, List.forall_mem_cons, List.not_mem_nil, false_implies, implies_true, and_true]
  exact ⟨Json.writable_of_lt (n := 200) (by decide), Json.writable_of_lt (n := 20) (by decide),
    Json.writable_of_lt (n := 102400) (by decide), rfl,
    Json.writable_of_lt (n := 102400) (by decide)⟩

theorem finite_standard : ∀ f ∈ ({} : Limits).fields, f.2.Finite := by
  simp only [fields, List.forall_mem_cons, List.not_mem_nil, false_implies, implies_true, and_true]
  exact ⟨rfl, rfl, rfl, rfl, rfl⟩

end Limits

end PerfReview
