import PerfReview.Yaml.Container

/-!
# Texts of values

Every value but the empty text has a text that is not empty. What stands for something in a document
is such a value.
-/

namespace PerfReview

namespace Number

theorem Layout.signed_ne_nil {negative : Bool} {s : List Char} (h : s ≠ []) :
    signed negative s ≠ [] := by
  cases negative
  · exact h
  · exact List.cons_ne_nil _ _

theorem intText_toList_ne_nil (n : Int) : (intText n).toList ≠ [] := by
  rw [intText, String.toList_ofList]
  exact Layout.signed_ne_nil Nat.toDigits_ne_nil

theorem Layout.magnitude_ne_nil (l : Layout) (mantissa : Nat) (exponent : Int) :
    l.magnitude mantissa exponent ≠ [] := by
  unfold magnitude positional scientific
  dsimp only
  repeat' split
  all_goals simp

theorem Layout.text_plain_toList_ne_nil (x : Binary64) : (plain.text x).toList ≠ [] := by
  unfold text
  rw [String.toList_ofList]
  split
  · decide
  · exact signed_ne_nil (by decide)
  · exact signed_ne_nil (by decide)
  · exact signed_ne_nil (magnitude_ne_nil _ _ _)

end Number

namespace Value

theorem speltDay_ne_empty (d : Day) : speltDay d ≠ "" := by
  dsimp only [speltDay, toString]
  rw [ne_eq, String.append_eq_empty_iff]
  exact fun h => nomatch h.2

theorem speltMoment_ne_empty (m : Moment) : speltMoment m ≠ "" := by
  dsimp only [speltMoment, toString]
  rw [ne_eq, String.append_eq_empty_iff]
  exact fun h => nomatch h.2

theorem inner_ne_nil (v : Value) : v.inner ≠ [] := by
  cases v with
  | int n => exact Number.intText_toList_ne_nil n
  | float x => exact Number.Layout.text_plain_toList_ne_nil x
  | text s => exact mt String.toList_eq_nil_iff.1 (by simp [Text.quoted])
  | day d => exact mt String.toList_eq_nil_iff.1 (speltDay_ne_empty d)
  | moment m => exact mt String.toList_eq_nil_iff.1 (speltMoment_ne_empty m)
  | bool b => cases b <;> decide
  | tuple items => match items with
    | [] | [_] | _ :: _ :: _ => exact List.cons_ne_nil _ _
  | set items => cases items <;> exact List.cons_ne_nil _ _
  | again isMap => cases isMap <;> decide
  | null | bytes | list | map => exact List.cons_ne_nil _ _

theorem display_ne_empty {v : Value} (h : v ≠ .text "") : v.display ≠ "" := by
  cases v with
  | text s => exact fun hs => h (congrArg Value.text hs)
  | day d =>
    show d.text ≠ ""
    simp [Day.text, toString]
  | moment m =>
    show m.text ≠ ""
    simp [Moment.text, toString]
  | _ => exact mt String.ofList_eq_empty_iff.1 (inner_ne_nil _)

end Value

namespace Yaml.Document

variable {d : Document} {item : Item}

theorem value_ne_empty (h : d.isSubstantial item = true) : d.value item ≠ .text "" := by
  cases item with
  | plain v =>
    rintro rfl
    cases h
  | container place =>
    rw [isSubstantial] at h
    obtain ⟨c, hc⟩ : ∃ c, d.containerAt? place = some c := by
      cases hat : d.containerAt? place with
      | none => simp [hat] at h
      | some c => exact ⟨c, rfl⟩
    have hvalue : d.value (.container place) = c.value (d.valueWithin d.containers.size [place]) := by
      rw [value, valueWithin, if_neg List.not_mem_nil, hc]
    rw [hvalue]
    cases c <;> exact nofun

theorem isSubstantial_of_entries? {es : List (Value × Item)} (h : d.entries? item = some es) :
    d.isSubstantial item = !es.isEmpty := by
  unfold entries? at h
  split at h
  · cases h
  · split at h
    · rename_i hat
      cases h
      rw [isSubstantial, hat]
      rfl
    · cases h

end Yaml.Document

end PerfReview
