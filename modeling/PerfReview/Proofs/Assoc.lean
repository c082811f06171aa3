import Mathlib.Data.List.Nodup
import PerfReview.Assoc

/-!
# Keys of ordered maps

What reading and writing do to the pairs of a map, and to its keys. A map keeps one pair for a key.
-/

namespace PerfReview.Assoc

variable {α β : Type} [DecidableEq α] {m : List (α × β)} {k : α} {v : β}

/-! ## Reading -/

theorem mem_of_get?_eq_some (h : get? m k = some v) : (k, v) ∈ m := by
  obtain ⟨p, hp, rfl⟩ := Option.map_eq_some_iff.1 h
  have hk : p.1 = k := by simpa using List.find?_some hp
  exact hk ▸ List.mem_of_find?_eq_some hp

theorem get?_isSome_iff : (get? m k).isSome = true ↔ k ∈ m.map (·.1) := by
  induction m with
  | nil => simp
  | cons p m ih =>
    obtain ⟨k', v'⟩ := p
    rw [get?_cons]
    by_cases h : k' = k
    · simp [h]
    · simp [h, ih, Ne.symm h]

theorem get?_eq_none (h : k ∉ m.map (·.1)) : get? m k = none := by
  rw [← Option.not_isSome_iff_eq_none, get?_isSome_iff]
  exact h

theorem get?_eq_some_iff (hn : (m.map (·.1)).Nodup) : get? m k = some v ↔ (k, v) ∈ m := by
  refine ⟨mem_of_get?_eq_some, fun h => ?_⟩
  obtain ⟨v', hv'⟩ := Option.isSome_iff_exists.1 (get?_isSome_iff.2 (List.mem_map_of_mem h))
  have hmem := mem_of_get?_eq_some hv'
  cases List.inj_on_of_nodup_map hn h hmem rfl
  exact hv'

variable {m' : List (α × β)}

theorem get?_perm (h : m.Perm m') (hn : (m.map (·.1)).Nodup) (k : α) : get? m k = get? m' k := by
  refine Option.ext fun v => ?_
  rw [get?_eq_some_iff hn, get?_eq_some_iff ((h.map _).nodup_iff.1 hn), h.mem_iff]

theorem get?_append (h : k ∉ m.map (·.1)) : get? (m ++ m') k = get? m' k := by
  induction m with
  | nil => rfl
  | cons p m ih =>
    obtain ⟨k', v'⟩ := p
    simp only [List.map_cons, List.mem_cons, not_or] at h
    rw [List.cons_append, get?_cons, if_neg (Ne.symm h.1), ih h.2]

/-! ## Values that may be missing -/

/-- The pairs whose value is there. -/
def present (ps : List (α × Option β)) : List (α × β) := ps.filterMap fun p => p.2.map (p.1, ·)

section
variable {ps : List (α × Option β)}

omit [DecidableEq α]

theorem mem_present {p : α × β} : p ∈ present ps ↔ (p.1, some p.2) ∈ ps := by
  simp only [present, List.mem_filterMap, Option.map_eq_some_iff]
  constructor
  · rintro ⟨⟨_, _⟩, hq, _, rfl, rfl⟩
    exact hq
  · exact fun h => ⟨_, h, _, rfl, rfl⟩

theorem keys_present (ps : List (α × Option β)) :
    ((present ps).map (·.1)).Sublist (ps.map (·.1)) := by
  induction ps with
  | nil => exact List.Sublist.refl _
  | cons p ps ih =>
    obtain ⟨k, v⟩ := p
    cases v with
    | none => exact ih.cons _
    | some v => exact ih.cons_cons _

end

theorem get?_present {ps : List (α × Option β)} (hn : (ps.map (·.1)).Nodup) (k : α) :
    get? (present ps) k = (get? ps k).join := by
  induction ps with
  | nil => rfl
  | cons p ps ih =>
    obtain ⟨k', v⟩ := p
    obtain ⟨hk, hrest⟩ : k' ∉ ps.map (·.1) ∧ (ps.map (·.1)).Nodup := List.nodup_cons.1 hn
    rw [get?_cons]
    cases v with
    | none =>
      split
      · rename_i h
        subst h
        exact get?_eq_none fun hmem => hk ((keys_present ps).subset hmem)
      · exact ih hrest
    | some v =>
      show get? ((k', v) :: present ps) k = _
      rw [get?_cons, ih hrest]
      split <;> rfl

/-! ## Writing -/

theorem put_append (h : k ∉ m.map (·.1)) : put k v (m ++ m') = m ++ put k v m' := by
  induction m with
  | nil => rfl
  | cons p m ih =>
    obtain ⟨k', v'⟩ := p
    simp only [List.map_cons, List.mem_cons, not_or] at h
    rw [List.cons_append, put, if_neg (Ne.symm h.1), ih h.2]
    rfl

theorem put_of_notMem (h : k ∉ m.map (·.1)) : put k v m = m ++ [(k, v)] := by
  have hput : put k v (m ++ []) = m ++ put k v [] := put_append h
  rwa [List.append_nil] at hput

theorem put_ne_nil (k : α) (v : β) (m : List (α × β)) : put k v m ≠ [] := by
  intro h
  have hget := get?_put_self m k v
  rw [h] at hget
  cases hget

theorem mem_put {p : α × β} (h : p ∈ put k v m) : p = (k, v) ∨ p ∈ m := by
  induction m with
  | nil => exact .inl (List.mem_singleton.1 h)
  | cons q m ih =>
    obtain ⟨k', v'⟩ := q
    rw [put] at h
    split at h
    · exact (List.mem_cons.1 h).imp_right (List.mem_cons_of_mem _)
    · rcases List.mem_cons.1 h with rfl | h
      · exact .inr List.mem_cons_self
      · exact (ih h).imp_right (List.mem_cons_of_mem _)

/-- What a map with one more key written holds. -/
theorem mem_put_of_nodup (hn : (m.map (·.1)).Nodup) {p : α × β} (h : p ∈ put k v m) :
    p = (k, v) ∨ (p ∈ m ∧ p.1 ≠ k) := by
  induction m with
  | nil => exact .inl (List.mem_singleton.1 h)
  | cons q m ih =>
    obtain ⟨k', v'⟩ := q
    obtain ⟨hk', hn⟩ := List.nodup_cons.1 hn
    rw [put] at h
    split at h
    · rename_i hk
      rcases List.mem_cons.1 h with h | h
      · exact .inl h
      · refine .inr ⟨List.mem_cons_of_mem _ h, fun e => hk' ?_⟩
        rw [hk, ← e]
        exact List.mem_map.2 ⟨p, h, rfl⟩
    · rename_i hk
      rcases List.mem_cons.1 h with rfl | h
      · exact .inr ⟨List.mem_cons_self, hk⟩
      · exact (ih hn h).imp_right fun h => ⟨List.mem_cons_of_mem _ h.1, h.2⟩

theorem keys_put (h : k ∈ m.map (·.1)) : (put k v m).map (·.1) = m.map (·.1) := by
  induction m with
  | nil => cases h
  | cons p m ih =>
    obtain ⟨k', v'⟩ := p
    rw [put]
    split
    · rename_i hk
      simp [hk]
    · rename_i hk
      rcases List.mem_cons.1 h with rfl | h
      · exact absurd rfl hk
      · rw [List.map_cons, ih h, List.map_cons]

theorem nodup_keys_put (h : (m.map (·.1)).Nodup) : ((put k v m).map (·.1)).Nodup := by
  induction m with
  | nil => exact List.nodup_singleton k
  | cons q m ih =>
    obtain ⟨k', v'⟩ := q
    obtain ⟨hk', hm⟩ := List.nodup_cons.1 h
    rw [put]
    split
    · rename_i hk
      exact List.nodup_cons.2 ⟨hk ▸ hk', hm⟩
    · rename_i hk
      refine List.nodup_cons.2 ⟨fun hmem => ?_, ih hm⟩
      obtain ⟨p, hp, e⟩ := List.mem_map.1 hmem
      rcases mem_put hp with rfl | hp
      · exact hk e.symm
      · exact hk' (List.mem_map.2 ⟨p, hp, e⟩)

theorem nodup_ofPairs (ps : List (α × β)) : ((ofPairs ps).map (·.1)).Nodup := by
  suffices ∀ m : List (α × β), (m.map (·.1)).Nodup →
      ((ps.foldl (fun m p => put p.1 p.2 m) m).map (·.1)).Nodup from this [] List.nodup_nil
  induction ps with
  | nil => exact fun m hm => hm
  | cons p ps ih => exact fun m hm => ih _ (nodup_keys_put hm)

theorem mem_ofPairs {ps : List (α × β)} {p : α × β} (h : p ∈ ofPairs ps) : p ∈ ps := by
  suffices ∀ m : List (α × β), p ∈ ps.foldl (fun m q => put q.1 q.2 m) m → p ∈ m ∨ p ∈ ps from
    (this [] h).resolve_left (List.not_mem_nil)
  clear h
  induction ps with
  | nil => exact fun m h => .inl h
  | cons q ps ih =>
    intro m h
    rcases ih (put q.1 q.2 m) h with h | h
    · rcases mem_put h with rfl | h
      · exact .inr List.mem_cons_self
      · exact .inl h
    · exact .inr (List.mem_cons_of_mem _ h)

/-- Pairs with different keys are a map as they stand. -/
theorem ofPairs_eq_self {ps : List (α × β)} (h : (ps.map (·.1)).Nodup) : ofPairs ps = ps := by
  suffices ∀ m : List (α × β), (m.map (·.1) ++ ps.map (·.1)).Nodup →
      ps.foldl (fun m p => put p.1 p.2 m) m = m ++ ps from this [] h
  clear h
  induction ps with
  | nil => exact fun m _ => (List.append_nil m).symm
  | cons p ps ih =>
    intro m h
    have hp : p.1 ∉ m.map (·.1) := fun hm =>
      (List.nodup_append.1 h).2.2 p.1 hm p.1 List.mem_cons_self rfl
    rw [List.foldl_cons, put_of_notMem hp, ih _ (by simpa using h), List.append_assoc]
    rfl

end PerfReview.Assoc
