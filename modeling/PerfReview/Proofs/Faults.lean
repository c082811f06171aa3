/-!
# Own faults

A computation built from others passes their faults on. It fails with faults of its own only if all
of its steps do, each as far as it is reached.
-/

namespace PerfReview

variable {ε ε' α β : Type} {own : ε → Bool} {own' : ε' → Bool}

/-- Whatever fault the computation ends with is an own one. -/
def FailsOnly (own : ε → Bool) (x : Except ε α) : Prop := ∀ f, x = .error f → own f = true

@[simp] theorem failsOnly_ok (a : α) : FailsOnly own (.ok a) := nofun

@[simp] theorem failsOnly_pure (a : α) : FailsOnly own (pure a) := nofun

@[simp] theorem failsOnly_error {f : ε} :
    FailsOnly own (.error f : Except ε α) ↔ own f = true :=
  ⟨fun h => h f rfl, fun h _ e => Except.error.inj e ▸ h⟩

@[simp] theorem failsOnly_throw {f : ε} :
    FailsOnly own (throw f : Except ε α) ↔ own f = true :=
  failsOnly_error

@[simp] theorem throw_bind {f : ε} {g : α → Except ε β} :
    (throw f >>= g : Except ε β) = throw f :=
  rfl

@[simp] theorem map_throw {f : ε} {g : α → β} : (g <$> throw f : Except ε β) = throw f := rfl

instance (own : ε → Bool) (x : Except ε α) : Decidable (FailsOnly own x) :=
  x.casesOn (fun f => decidable_of_iff (own f = true) failsOnly_error.symm)
    fun a => .isTrue (failsOnly_ok a)

theorem failsOnly_iff {x : Except ε α} :
    FailsOnly own x ↔ (∃ a, x = .ok a) ∨ ∃ f, x = .error f ∧ own f = true := by
  cases x with
  | ok a => simp
  | error f => simp

/-- A computation without own faults fails with one of them only if it does not fail. -/
theorem failsOnly_iff_exists {x : Except ε α} (h : FailsOnly (fun f => !own f) x) :
    FailsOnly own x ↔ ∃ a, x = .ok a := by
  cases x with
  | ok a => simp
  | error f => simpa using h

theorem failsOnly_bind {x : Except ε α} {g : α → Except ε β} :
    FailsOnly own (x >>= g) ↔ FailsOnly own x ∧ ∀ a, x = .ok a → FailsOnly own (g a) := by
  cases x with
  | ok a => simp [bind, Except.bind]
  | error f => simp [bind, Except.bind]

theorem failsOnly_bind_of_ok {x : Except ε α} {g : α → Except ε β} (h : ∀ a, FailsOnly own (g a)) :
    FailsOnly own (x >>= g) ↔ FailsOnly own x :=
  failsOnly_bind.trans (and_iff_left fun a _ => h a)

theorem failsOnly_map {x : Except ε α} {g : α → β} :
    FailsOnly own (x.map g) ↔ FailsOnly own x := by
  cases x with
  | ok a => exact iff_of_true (failsOnly_ok (g a)) (failsOnly_ok a)
  | error f => exact failsOnly_error.trans failsOnly_error.symm

theorem failsOnly_functor_map {x : Except ε α} {g : α → β} :
    FailsOnly own (g <$> x) ↔ FailsOnly own x :=
  failsOnly_map

theorem failsOnly_mapError {x : Except ε α} {g : ε → ε'} :
    FailsOnly own' (x.mapError g) ↔ FailsOnly (fun f => own' (g f)) x := by
  cases x with
  | ok a => exact iff_of_true (failsOnly_ok a) (failsOnly_ok a)
  | error f =>
    refine ⟨fun h f' e => ?_, fun h => failsOnly_error.2 (h f rfl)⟩
    cases e
    exact failsOnly_error.1 h

/-! ## Two steps -/

section
variable {x : Except ε α} {g : α → Except ε β} {P : Prop}

theorem ok_bind (a : α) : (.ok a >>= g) = g a := rfl

/-- Whether the second step fails does not depend on what the first one gives. -/
theorem failsOnly_bind_iff (h : ∀ a, FailsOnly own (g a) ↔ P) :
    FailsOnly own (x >>= g) ↔ FailsOnly own x ∧ ((∃ a, x = .ok a) → P) := by
  simp [failsOnly_bind, h]

theorem failsOnly_bind_iff_exists (hx : FailsOnly (fun f => !own f) x)
    (h : ∀ a, FailsOnly own (g a) ↔ P) :
    FailsOnly own (x >>= g) ↔ (∃ a, x = .ok a) ∧ P := by
  rw [failsOnly_bind_iff h, failsOnly_iff_exists hx, and_congr_right_iff]
  exact fun hx => ⟨fun hP => hP hx, fun hP _ => hP⟩

theorem failsOnly_bind_iff_and (hx : FailsOnly (fun f => !own f) x) :
    FailsOnly own (x >>= g) ↔ ∃ a, x = .ok a ∧ FailsOnly own (g a) := by
  cases x with
  | ok a => simp [ok_bind]
  | error f =>
    have hf : own f = false := by simpa using hx
    refine iff_of_false (fun h => ?_) fun ⟨_, h, _⟩ => nomatch h
    cases hf.symm.trans (h f rfl)

theorem exists_bind_iff (h : ∀ a, (∃ b, g a = .ok b) ↔ P) :
    (∃ b, (x >>= g) = .ok b) ↔ (∃ a, x = .ok a) ∧ P := by
  cases x with
  | error f => exact iff_of_false nofun fun h => nomatch h.1
  | ok a => exact (h a).trans (by simp)

end

/-! ## Steps for the items of a list -/

section
variable {f : α → Except ε (Option β)} {l : List α}

theorem failsOnly_filterMapM (h : ∀ a ∈ l, FailsOnly own (f a)) :
    FailsOnly own (l.filterMapM f) := by
  induction l with
  | nil => simp
  | cons a l ih =>
    obtain ⟨ha, hl⟩ := List.forall_mem_cons.1 h
    rw [List.filterMapM_cons, failsOnly_bind]
    refine ⟨ha, fun b _ => ?_⟩
    cases b with
    | none => exact ih hl
    | some b => exact (failsOnly_bind_of_ok fun _ => failsOnly_pure _).2 (ih hl)

theorem exists_filterMapM_iff :
    (∃ bs, l.filterMapM f = .ok bs) ↔ ∀ a ∈ l, ∃ b, f a = .ok b := by
  induction l with
  | nil => exact iff_of_true ⟨[], rfl⟩ (by simp)
  | cons a l ih =>
    rw [List.filterMapM_cons, List.forall_mem_cons, ← ih]
    cases f a with
    | error e => exact iff_of_false nofun fun h => nomatch h.1
    | ok b =>
      cases b with
      | none => simp [bind, Except.bind]
      | some b => cases l.filterMapM f <;> simp [bind, Except.bind, pure, Except.pure]

theorem exists_of_mem_filterMapM {bs : List β} {b : β} (h : l.filterMapM f = .ok bs)
    (hb : b ∈ bs) : ∃ a ∈ l, f a = .ok (some b) := by
  induction l generalizing bs with
  | nil =>
    cases h
    cases hb
  | cons a l ih =>
    rw [List.filterMapM_cons] at h
    have hlater : ∀ {bs}, l.filterMapM f = .ok bs → b ∈ bs → ∃ a' ∈ a :: l, f a' = .ok (some b) :=
      fun hl hb => (ih hl hb).imp fun _ => .imp_left (List.mem_cons_of_mem a)
    cases ha : f a with
    | error e =>
      rw [ha] at h
      cases h
    | ok result =>
      rw [ha, ok_bind] at h
      cases result with
      | none => exact hlater h hb
      | some b' =>
        cases hl : l.filterMapM f with
        | error e =>
          rw [hl] at h
          cases h
        | ok rest =>
          rw [hl] at h
          cases h
          rcases List.mem_cons.1 hb with rfl | hb
          · exact ⟨a, List.mem_cons_self, ha⟩
          · exact hlater hl hb

theorem filterMapM_map {g : β → α} {bs : List β} (h : ∀ b ∈ bs, f (g b) = .ok (some b)) :
    (bs.map g).filterMapM f = .ok bs := by
  induction bs with
  | nil => rfl
  | cons b bs ih =>
    obtain ⟨hb, hbs⟩ := List.forall_mem_cons.1 h
    rw [List.map_cons, List.filterMapM_cons, hb, ok_bind, ih hbs]
    rfl

end

/-! ## Results -/

section
variable {x : Except ε α} {a : α} {f : α → β} {b : β}

theorem eq_ok_of_toOption (h : x.toOption = some a) : x = .ok a := by
  cases x with
  | error e => cases h
  | ok b => exact congrArg Except.ok (Option.some.inj h)

theorem exists_of_isSome (h : x.toOption.isSome = true) : ∃ a, x = .ok a := by
  cases x with
  | error e => cases h
  | ok a => exact ⟨a, rfl⟩

theorem exists_of_map_eq_some (h : x.toOption.map f = some b) : ∃ a, x = .ok a ∧ f a = b := by
  cases x with
  | error e => cases h
  | ok a => exact ⟨a, rfl, Option.some.inj h⟩

end

end PerfReview
