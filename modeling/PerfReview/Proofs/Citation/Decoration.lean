import PerfReview.Citation
import PerfReview.Proofs.Text.Cut

/-!
# Decorated citations

`Coated core s`: `s` is `core` in layers of marks, with white space inside each layer. `Respelt u v`:
`v` is `u` with some of its slashes turned. A path that is its own plain form is sealed: nothing can
be taken off it. Turning slashes keeps it sealed, and of a sealed text in layers exactly the layers
are taken off.
-/

namespace PerfReview.Citation

open Text

instance (s : List Char) : Decidable (White s) :=
  decidable_of_iff (s.all isBlank = true) List.all_eq_true

/-! ## Texts that nothing can be taken off -/

theorem trim_sublist (s : List Char) : (trim s).Sublist s := by
  have hend : (trimEnd (trimStart s)).Sublist (trimStart s) := by
    have h := (List.dropWhile_sublist isBlank (l := (trimStart s).reverse)).reverse
    rwa [List.reverse_reverse] at h
  exact hend.trans (List.dropWhile_sublist isBlank)

theorem trim_eq_self {s : List Char} (h : Stops isBlank s) (h' : Stops isBlank s.reverse) :
    trim s = s := by
  rw [trim, trimStart_of_stops h, trimEnd, ← trimStart, trimStart_of_stops h', List.reverse_reverse]

theorem trim_white_append {s pre post : List Char} (hpre : White pre) (hpost : White post)
    (hne : s ≠ []) (h : trim s = s) : trim (pre ++ s ++ post) = s := by
  obtain ⟨hstart, hend⟩ := stops_of_trim_eq_self h
  obtain ⟨c, t, rfl⟩ := List.exists_cons_of_ne_nil hne
  have hstops : Stops isBlank (c :: t ++ post) := stops_cons (hstart c rfl)
  have hfront : trimStart (pre ++ (c :: t ++ post)) = c :: t ++ post :=
    dropWhile_append_of_stops hpre hstops
  rw [List.append_assoc, trim, hfront, trimEnd_append_white _ hpost, trimEnd, ← trimStart,
    trimStart_of_stops hend, List.reverse_reverse]

theorem unwrap?_eq_none_iff {mark s : List Char} :
    unwrap? mark s = none ↔ ¬ (mark <+: s ∧ mark <:+ s ∧ 2 * mark.length ≤ s.length) := by
  simp only [unwrap?, ite_eq_right_iff, reduceCtorEq, imp_false, Bool.and_eq_true,
    List.isPrefixOf_iff_prefix, List.isSuffixOf_iff_suffix, decide_eq_true_eq, and_assoc]

theorem length_lt_of_unwrap? {mark s t : List Char} (hne : mark ≠ [])
    (h : unwrap? mark s = some t) : t.length < s.length := by
  have hmark : 0 < mark.length := List.length_pos_iff.2 hne
  unfold unwrap? at h
  split at h
  · rename_i hlong
    cases h
    simp only [Bool.and_eq_true, decide_eq_true_eq] at hlong
    have htrim := (trim_sublist ((s.drop mark.length).take (s.length - 2 * mark.length))).length_le
    rw [List.length_take] at htrim
    omega
  · cases h

theorem mark_ne_nil : ∀ mark ∈ wrappers, mark ≠ [] := by decide

/-- A round of peeling takes nothing off only if no mark can be taken off. -/
theorem length_foldl_unwrap {marks : List (List Char)} (hne : ∀ mark ∈ marks, mark ≠ [])
    (s : List Char) :
    (marks.foldl (fun s w => (unwrap? w s).getD s) s).length ≤ s.length ∧
      ((marks.foldl (fun s w => (unwrap? w s).getD s) s).length = s.length →
        ∀ mark ∈ marks, unwrap? mark s = none) := by
  induction marks generalizing s with
  | nil => exact ⟨Nat.le_refl _, fun _ _ h => absurd h List.not_mem_nil⟩
  | cons mark marks ih =>
    obtain ⟨hmark, hmarks⟩ := List.forall_mem_cons.1 hne
    rw [List.foldl_cons]
    cases h : unwrap? mark s with
    | none =>
      obtain ⟨hle, hnone⟩ := ih hmarks s
      exact ⟨hle, fun e => List.forall_mem_cons.2 ⟨h, hnone e⟩⟩
    | some t =>
      have hlt := length_lt_of_unwrap? hmark h
      obtain ⟨hle, -⟩ := ih hmarks t
      rw [Option.getD_some]
      exact ⟨by omega, fun e => by omega⟩

theorem length_peelRound_le (s : List Char) : (peelRound s).length ≤ s.length :=
  (length_foldl_unwrap mark_ne_nil s).1

theorem unwrap?_eq_none_of_peelRound {s : List Char} (h : (peelRound s).length = s.length) :
    ∀ mark ∈ wrappers, unwrap? mark s = none := (length_foldl_unwrap mark_ne_nil s).2 h

theorem length_peel_le (fuel : Nat) (s : List Char) : (peel fuel s).length ≤ s.length := by
  induction fuel generalizing s with
  | zero => exact Nat.le_refl _
  | succ fuel ih =>
    unfold peel
    dsimp only
    split
    · exact Nat.le_refl _
    · exact Nat.le_trans (ih _) (length_peelRound_le s)

/-- Peeling leaves as long a text only if no mark can be taken off. -/
theorem peel_of_length_eq {fuel : Nat} {s : List Char}
    (h : (peel (fuel + 1) s).length = s.length) :
    peel (fuel + 1) s = s ∧ ∀ mark ∈ wrappers, unwrap? mark s = none := by
  unfold peel at h ⊢
  dsimp only at h ⊢
  split at h
  · rename_i hsame
    rw [if_pos hsame]
    exact ⟨rfl, unwrap?_eq_none_of_peelRound hsame⟩
  · have hround := length_peelRound_le s
    have hrest := length_peel_le fuel (peelRound s)
    omega

/-- Neither white space nor a mark can be taken off the text. -/
structure Sealed (s : List Char) : Prop where
  trimmed : trim s = s
  unmarked : ∀ mark ∈ wrappers, unwrap? mark s = none

theorem dropHere_suffix (s : List Char) : dropHere s <:+ s := by
  fun_induction dropHere s with
  | case1 s ih => exact ih.trans ⟨['.', '/'], rfl⟩
  | case2 s => exact List.suffix_rfl

theorem length_slashes (s : List Char) : (slashes s).length = s.length := List.length_map ..

/-- A path that is its own plain form is left alone by each of the steps to it. -/
theorem sealed_of_plain_eq_self {s : List Char} (hne : s ≠ []) (h : plain s = s) :
    Sealed s ∧ slashes s = s ∧ dropHere s = s := by
  unfold plain at h
  dsimp only at h
  have hlen := congrArg List.length h
  have htrim := (trim_sublist s).length_le
  have hpeel := length_peel_le (trim s).length (trim s)
  have hhere := (dropHere_suffix (slashes (peel (trim s).length (trim s)))).length_le
  rw [length_slashes] at hhere
  have htrimmed : trim s = s := (trim_sublist s).eq_of_length (by omega)
  rw [htrimmed] at h hpeel hhere hlen
  obtain ⟨fuel, hfuel⟩ : ∃ fuel, s.length = fuel + 1 :=
    Nat.exists_eq_succ_of_ne_zero (mt List.length_eq_zero_iff.1 hne)
  have hround : peel s.length s = s ∧ ∀ mark ∈ wrappers, unwrap? mark s = none := by
    rw [hfuel] at hpeel hhere hlen ⊢
    exact peel_of_length_eq (by omega)
  rw [hround.1] at h hhere hlen
  have hslashes : dropHere (slashes s) = slashes s :=
    (dropHere_suffix (slashes s)).eq_of_length (by rw [hlen, length_slashes])
  rw [hslashes] at h
  rw [h] at hslashes
  exact ⟨⟨htrimmed, hround.2⟩, h, hslashes⟩

/-! ## Layers of marks -/

/-- The text in layers of marks, with white space just inside each layer. -/
inductive Coated (core : List Char) : List Char → Prop where
  | bare : Coated core core
  | layer {mark pre s post : List Char} : mark ∈ wrappers → White pre → Coated core s →
      White post → Coated core (mark ++ (pre ++ s ++ post) ++ mark)

theorem reverse_mark : ∀ mark ∈ wrappers, mark.reverse = mark := by decide

theorem exists_mark_cons :
    ∀ mark ∈ wrappers, ∃ c t, mark = c :: t ∧ isBlank c = false ∧ '\\' ∉ mark ∧ c ≠ '.' := by
  simp only [wrappers, List.forall_mem_cons]
  exact ⟨⟨'*', ['*'], rfl, by decide⟩, ⟨'\x60', [], rfl, by decide⟩,
    ⟨'\x22', [], rfl, by decide⟩, ⟨'\x27', [], rfl, by decide⟩, nofun⟩

/-- A text begins with one mark at most. -/
theorem eq_of_mark_starts {mark other s : List Char} (hm : mark ∈ wrappers) (ho : other ∈ wrappers)
    (h : other <+: mark ++ s) : other = mark := by
  have hheads : ∀ m ∈ wrappers, ∀ o ∈ wrappers, o.head? = m.head? → o = m := by decide
  obtain ⟨c, t, rfl, -⟩ := exists_mark_cons mark hm
  obtain ⟨d, t', rfl, -⟩ := exists_mark_cons other ho
  obtain ⟨rest, hrest⟩ := h
  have hhead : d = c := (List.cons.inj hrest).1
  exact hheads _ hm _ ho (by rw [hhead]; rfl)

theorem unwrap?_layer {mark s : List Char} : unwrap? mark (mark ++ s ++ mark) = some (trim s) := by
  have hlen : (mark ++ s ++ mark).length = 2 * mark.length + s.length := by
    rw [List.length_append, List.length_append]
    omega
  have hfront : mark.isPrefixOf (mark ++ s ++ mark) = true :=
    List.isPrefixOf_iff_prefix.2 ⟨s ++ mark, by rw [List.append_assoc]⟩
  have hsuffix : mark.isSuffixOf (mark ++ s ++ mark) = true :=
    List.isSuffixOf_iff_suffix.2 ⟨mark ++ s, rfl⟩
  have hcut : ((mark ++ s ++ mark).drop mark.length).take
      ((mark ++ s ++ mark).length - 2 * mark.length) = s := by
    rw [hlen, Nat.add_sub_cancel_left, List.append_assoc, List.drop_left, List.take_left]
  rw [unwrap?, hfront, hsuffix, hcut, if_pos]
  rw [Bool.and_self, Bool.true_and, decide_eq_true_iff]
  omega

theorem unwrap?_layer_of_ne {mark other s : List Char} (hm : mark ∈ wrappers)
    (ho : other ∈ wrappers) (hne : other ≠ mark) : unwrap? other (mark ++ s ++ mark) = none := by
  rw [unwrap?_eq_none_iff]
  rintro ⟨hfront, -⟩
  rw [List.append_assoc] at hfront
  exact hne (eq_of_mark_starts hm ho hfront)

section
variable {core s : List Char}

theorem Coated.ne_nil (h : Coated core s) (hne : core ≠ []) : s ≠ [] := by
  cases h with
  | bare => exact hne
  | @layer mark pre s post hm _ _ _ =>
    obtain ⟨c, t, rfl, -⟩ := exists_mark_cons mark hm
    exact List.cons_ne_nil _ _

theorem Coated.trimmed (h : Coated core s) (hcore : trim core = core) : trim s = s := by
  cases h with
  | bare => exact hcore
  | @layer mark pre s post hm _ _ _ =>
    have hstops : ∀ u, Stops isBlank (mark ++ u) := by
      intro u
      obtain ⟨c, t, rfl, hc, -⟩ := exists_mark_cons mark hm
      exact stops_cons hc
    refine trim_eq_self ?_ ?_
    · rw [List.append_assoc]
      exact hstops _
    · rw [List.reverse_append, reverse_mark mark hm]
      exact hstops _

/-- Taking a mark off leaves the core with the layers below that mark. -/
theorem Coated.unwrap (h : Coated core s) (hcore : Sealed core) (hne : core ≠ [])
    {other : List Char} (ho : other ∈ wrappers) : Coated core ((unwrap? other s).getD s) := by
  cases h with
  | bare =>
    rw [hcore.unmarked other ho]
    exact .bare
  | @layer mark pre s post hm hpre hs hpost =>
    by_cases hsame : other = mark
    · subst hsame
      rw [unwrap?_layer, trim_white_append hpre hpost (hs.ne_nil hne) (hs.trimmed hcore.trimmed)]
      exact hs
    · rw [unwrap?_layer_of_ne hm ho hsame]
      exact .layer hm hpre hs hpost

theorem Coated.peelRound (h : Coated core s) (hcore : Sealed core) (hne : core ≠ []) :
    Coated core (peelRound s) := by
  suffices ∀ marks : List (List Char), (∀ mark ∈ marks, mark ∈ wrappers) → ∀ s, Coated core s →
      Coated core (marks.foldl (fun s w => (unwrap? w s).getD s) s) from
    this wrappers (fun _ hm => hm) s h
  intro marks
  induction marks with
  | nil => exact fun _ _ hs => hs
  | cons mark marks ih =>
    intro hmarks s hs
    obtain ⟨hm, hmarks⟩ := List.forall_mem_cons.1 hmarks
    exact ih hmarks _ (hs.unwrap hcore hne hm)

/-- Of a sealed text in layers of marks exactly the layers are peeled off. -/
theorem Coated.peel (h : Coated core s) (hcore : Sealed core) (hne : core ≠ []) {fuel : Nat}
    (hfuel : s.length ≤ fuel) : peel fuel s = core := by
  induction fuel generalizing s with
  | zero => exact absurd (List.length_eq_zero_iff.1 (Nat.le_zero.1 hfuel)) (h.ne_nil hne)
  | succ fuel ih =>
    have hround := length_peelRound_le s
    unfold Citation.peel
    dsimp only
    split
    · rename_i hsame
      -- nothing is taken off any more, so no layer is left
      have hnone := unwrap?_eq_none_of_peelRound hsame
      cases h with
      | bare => rfl
      | @layer mark pre s post hm _ _ _ =>
        have hmark := hnone mark hm
        rw [unwrap?_layer] at hmark
        cases hmark
    · exact ih (h.peelRound hcore hne) (by omega)

end

/-! ## Turned slashes -/

/-- The second text is the first one with some of its slashes turned. -/
inductive Respelt : List Char → List Char → Prop where
  | nil : Respelt [] []
  | keep {u v : List Char} (c : Char) : Respelt u v → Respelt (c :: u) (c :: v)
  | turn {u v : List Char} : Respelt u v → Respelt ('/' :: u) ('\\' :: v)

namespace Respelt

variable {u v a b : List Char}

theorem length_eq (h : Respelt u v) : u.length = v.length := by
  induction h with
  | nil => rfl
  | keep c _ ih => rw [List.length_cons, List.length_cons, ih]
  | turn _ ih => rw [List.length_cons, List.length_cons, ih]

/-- Turning the slashes back undoes the turning. -/
theorem slashes_eq (h : Respelt u v) : slashes v = slashes u := by
  induction h with
  | nil => rfl
  | keep c _ ih =>
    unfold slashes at ih ⊢
    rw [List.map_cons, List.map_cons, ih]
  | turn _ ih =>
    unfold slashes at ih ⊢
    rw [List.map_cons, List.map_cons, ih]
    rfl

theorem append {u' v' : List Char} (h : Respelt u v) (h' : Respelt u' v') :
    Respelt (u ++ u') (v ++ v') := by
  induction h with
  | nil => exact h'
  | keep c _ ih => exact .keep c ih
  | turn _ ih => exact .turn ih

theorem reverse (h : Respelt u v) : Respelt u.reverse v.reverse := by
  induction h with
  | nil => exact .nil
  | keep c _ ih =>
    rw [List.reverse_cons, List.reverse_cons]
    exact ih.append (.keep c .nil)
  | turn _ ih =>
    rw [List.reverse_cons, List.reverse_cons]
    exact ih.append (.turn .nil)

/-- What stands at the front without turned slashes stood there before. -/
theorem prefix_of (h : Respelt u v) (hb : '\\' ∉ a) (ha : a <+: v) : a <+: u := by
  induction h generalizing a with
  | nil => exact ha
  | keep c _ ih =>
    cases a with
    | nil => exact List.nil_prefix
    | cons d a =>
      obtain ⟨rfl, hrest⟩ := List.cons_prefix_cons.1 ha
      exact List.cons_prefix_cons.2 ⟨rfl, ih (fun hm => hb (List.mem_cons_of_mem _ hm)) hrest⟩
  | turn _ ih =>
    cases a with
    | nil => exact List.nil_prefix
    | cons d a =>
      obtain ⟨rfl, -⟩ := List.cons_prefix_cons.1 ha
      exact absurd List.mem_cons_self hb

theorem suffix_of (h : Respelt u v) (hb : '\\' ∉ a) (ha : a <:+ v) : a <:+ u := by
  rw [← List.reverse_prefix] at ha ⊢
  exact h.reverse.prefix_of (by rwa [List.mem_reverse]) ha

theorem stops (h : Respelt u v) (hu : Stops isBlank u) : Stops isBlank v := by
  cases h with
  | nil => exact hu
  | keep c _ => exact stops_cons (hu c rfl)
  | turn _ => exact stops_cons (by decide)

/-- Turning slashes uncovers neither white space nor a mark. -/
theorem isSealed (h : Respelt u v) (hu : Sealed u) : Sealed v := by
  obtain ⟨htrim, hmarks⟩ := hu
  obtain ⟨hstart, hend⟩ := stops_of_trim_eq_self htrim
  refine ⟨trim_eq_self (h.stops hstart) (h.reverse.stops hend), fun mark hm => ?_⟩
  obtain ⟨-, -, -, -, hturned, -⟩ := exists_mark_cons mark hm
  have hnone := unwrap?_eq_none_iff.1 (hmarks mark hm)
  rw [unwrap?_eq_none_iff]
  rintro ⟨hfront, hsuffix, hlen⟩
  rw [← h.length_eq] at hlen
  exact hnone ⟨h.prefix_of hturned hfront, h.suffix_of hturned hsuffix, hlen⟩

end Respelt

/-! ## Plain forms -/

/-- A path with any number of parts in front that name the folder itself. -/
def fromHere (k : Nat) (m : List Char) : List Char := (List.replicate k ['.', '/']).flatten ++ m

theorem fromHere_succ (k : Nat) (m : List Char) :
    fromHere (k + 1) m = '.' :: '/' :: fromHere k m := rfl

section
variable {m : List Char}

theorem dropHere_fromHere (k : Nat) (h : dropHere m = m) : dropHere (fromHere k m) = m := by
  induction k with
  | zero => exact h
  | succ k ih =>
    rw [fromHere_succ, dropHere]
    exact ih

theorem slashes_fromHere (k : Nat) (h : slashes m = m) : slashes (fromHere k m) = fromHere k m := by
  induction k with
  | zero => exact h
  | succ k ih =>
    rw [fromHere_succ]
    unfold slashes at ih ⊢
    rw [List.map_cons, List.map_cons, ih]
    rfl

theorem isSealed_fromHere (k : Nat) (hne : m ≠ []) (h : Sealed m) : Sealed (fromHere k m) := by
  cases k with
  | zero => exact h
  | succ k =>
    obtain ⟨-, hend⟩ := stops_of_trim_eq_self h.trimmed
    refine ⟨trim_eq_self (stops_cons (by decide)) ?_, fun mark hm => ?_⟩
    · obtain ⟨c, t, e⟩ := List.exists_cons_of_ne_nil (mt List.reverse_eq_nil_iff.1 hne)
      rw [e] at hend
      rw [fromHere, List.reverse_append, e]
      exact stops_cons (hend c rfl)
    · rw [unwrap?_eq_none_iff]
      rintro ⟨hfront, -⟩
      obtain ⟨c, t, rfl, -, -, hdot⟩ := exists_mark_cons mark hm
      exact hdot (List.cons_prefix_cons.1 hfront).1

end

/-- The text is the path `u`, some of its slashes turned, in layers of marks and white space. -/
def Decorated (u w : List Char) : Prop := ∃ v pre s post, Respelt u v ∧ Coated v s ∧
  White pre ∧ White post ∧ w = pre ++ s ++ post

theorem plain_of_decorated {u w : List Char} (hne : u ≠ []) (hu : Sealed u) (hs : slashes u = u)
    (h : Decorated u w) : plain w = dropHere u := by
  obtain ⟨v, pre, s, post, hspelt, hcoat, hpre, hpost, rfl⟩ := h
  have hv := hspelt.isSealed hu
  have hvne : v ≠ [] := by
    intro e
    have hlen := hspelt.length_eq
    rw [e, List.length_nil] at hlen
    exact hne (List.length_eq_zero_iff.1 hlen)
  have htrim : trim (pre ++ s ++ post) = s :=
    trim_white_append hpre hpost (hcoat.ne_nil hvne) (hcoat.trimmed hv.trimmed)
  unfold plain
  rw [htrim]
  dsimp only
  rw [hcoat.peel hv hvne (Nat.le_refl _), hspelt.slashes_eq, hs]

end PerfReview.Citation
