import PerfReview.Json.Basic

/-!
# Fields of JSON values

What it says of a value that a field of it has a text, a list or an object.
-/

namespace PerfReview.Json

variable {j v : Json} {name : String} {fields : List (String × Json)} {items : List Json}
  {s : String}

theorem text?_eq_some : j.text? = some s ↔ j = .text s := by
  cases j <;> simp [text?]

theorem list?_eq_some : j.list? = some items ↔ j = .list items := by
  cases j <;> simp [list?]

theorem field?_eq_some :
    j.field? name = some v ↔ ∃ fields, j = .object fields ∧ Assoc.get? fields name = some v := by
  cases j <;> simp [field?]

theorem field?_object : (object fields).field? name = Assoc.get? fields name := rfl

theorem field?_of_fieldOrNull (h : j.fieldOrNull name = v) (hv : v ≠ .null) :
    j.field? name = some v := by
  unfold fieldOrNull at h
  cases hfield : j.field? name with
  | none =>
    rw [hfield] at h
    exact absurd h.symm hv
  | some v' =>
    rw [hfield] at h
    exact congrArg some h

/-- A field of a field is there if the field is an object with it. -/
theorem field?_fieldOrNull {inner : String} (h : (j.fieldOrNull name).field? inner = some v) :
    ∃ fields, j.field? name = some (.object fields) ∧ Assoc.get? fields inner = some v := by
  obtain ⟨fields, hobject, hv⟩ := field?_eq_some.1 h
  exact ⟨fields, field?_of_fieldOrNull hobject nofun, hv⟩

theorem eq_list_of_getD {v : Option Json} {first : Json} {others : List Json}
    (h : (v.bind Json.list?).getD [] = first :: others) : v = some (.list (first :: others)) := by
  cases v with
  | none => cases h
  | some v =>
    cases v with
    | list items => exact congrArg (fun l => some (Json.list l)) h
    | _ => cases h

/-- The first of the items of a field, where it is an object, stands in the list there. -/
theorem get?_of_headD {first : List (String × Json)}
    (h : (((Assoc.get? fields name).bind list?).getD []).headD .null = .object first) :
    ∃ others, Assoc.get? fields name = some (.list (.object first :: others)) := by
  cases hitems : ((Assoc.get? fields name).bind list?).getD [] with
  | nil =>
    rw [hitems] at h
    cases h
  | cons j others =>
    rw [hitems] at h
    cases (show j = .object first from h)
    exact ⟨others, eq_list_of_getD hitems⟩

end PerfReview.Json
