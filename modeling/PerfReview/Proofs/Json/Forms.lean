import Mathlib.Data.List.TakeWhile
import PerfReview.Proofs.Disk.Texts
import PerfReview.Proofs.Json.Reading

/-!
# What both forms of a document hold

A document over several lines and the same document on one line have the same surrogates. A value
whose numbers are finite is kept whole where there is null for a number that is not.
-/

namespace PerfReview

open Text (isSurrogate unwritable?)

/-- A text can be written exactly if it holds no surrogates. -/
theorem Text.unwritable?_eq_none_iff {s : String} :
    unwritable? s = none ↔ s.toList.filter isSurrogate = [] := by
  rw [List.filter_eq_nil_iff]
  constructor
  · intro h c hc
    simp [isSurrogate_of_mem h hc]
  · intro h
    have hall : s.toList.takeWhile (!isSurrogate ·) = s.toList := by
      refine List.takeWhile_eq_self_iff.2 fun c hc => ?_
      simpa using h c hc
    unfold unwritable?
    dsimp only
    rw [hall, List.drop_length]

namespace Json

/-! ## Surrogates -/

namespace Printer

theorem surrogates_cons {c : Char} (h : isSurrogate c = false) (s : List Char) :
    (c :: s).filter isSurrogate = s.filter isSurrogate :=
  List.filter_cons_of_neg (by simp [h])

theorem surrogates_newline (depth : Nat) : (newline depth).filter isSurrogate = [] := by
  refine List.filter_eq_nil_iff.2 fun c hc => ?_
  rcases List.mem_cons.1 hc with rfl | hc
  · decide
  · rw [List.eq_of_mem_replicate hc]
    decide

theorem lineString_denseLine (s : String) : lineString denseLine s = string s := rfl

theorem comma_denseLine : denseLine.comma = [','] := rfl

theorem colon_denseLine : denseLine.colon = [':'] := rfl

mutual

theorem surrogates_value (depth : Nat) : ∀ j : Json,
    (value depth j).filter isSurrogate = (line denseLine j).filter isSurrogate
  | .null | .bool true | .bool false | .int _ | .float _ | .text _ | .list [] | .object [] => rfl
  | .list (v :: vs) => by
    simp (disch := decide) only [value, line, List.cons_append, List.filter_append,
      surrogates_cons, surrogates_newline, surrogates_value (depth + 1) v, surrogates_items depth vs,
      List.filter_nil, List.nil_append, List.append_nil]
  | .object ((k, v) :: fs) => by
    simp (disch := decide) only [value, line, lineString_denseLine, colon_denseLine,
      List.cons_append, List.filter_append, surrogates_cons, surrogates_newline,
      surrogates_value (depth + 1) v, surrogates_fields depth fs, List.filter_nil,
      List.nil_append, List.append_nil, List.append_assoc]

theorem surrogates_items (depth : Nat) : ∀ vs : List Json,
    (items depth vs).filter isSurrogate = (lineItems denseLine vs).filter isSurrogate
  | [] => rfl
  | v :: vs => by
    simp (disch := decide) only [items, lineItems, comma_denseLine, List.cons_append,
      List.nil_append, List.filter_append, surrogates_cons, surrogates_newline,
      surrogates_value (depth + 1) v, surrogates_items depth vs]

theorem surrogates_fields (depth : Nat) : ∀ fs : List (String × Json),
    (fields depth fs).filter isSurrogate = (lineFields denseLine fs).filter isSurrogate
  | [] => rfl
  | (k, v) :: fs => by
    simp (disch := decide) only [fields, lineFields, comma_denseLine, colon_denseLine,
      lineString_denseLine, List.cons_append, List.nil_append, List.filter_append, surrogates_cons,
      surrogates_newline, surrogates_value (depth + 1) v, surrogates_fields depth fs,
      List.append_assoc]

end

end Printer

/-- The surrogates of a document are those of its form on one line. -/
theorem surrogates_print (j : Json) :
    j.print.toList.filter isSurrogate = j.dense.toList.filter isSurrogate := by
  unfold print dense
  rw [String.toList_ofList, String.toList_ofList, Printer.surrogates_value]

/-! ## Finite numbers -/

def Finite (j : Json) : Prop := j.withFinite = j

theorem withFiniteItems_eq_map (vs : List Json) : withFiniteItems vs = vs.map withFinite := by
  induction vs with
  | nil => rfl
  | cons v vs ih => rw [withFiniteItems, ih, List.map_cons]

theorem withFiniteFields_eq_map (fs : List (String × Json)) :
    withFiniteFields fs = fs.map fun f => (f.1, f.2.withFinite) := by
  induction fs with
  | nil => rfl
  | cons f fs ih => rw [withFiniteFields, ih, List.map_cons]

@[simp] theorem finite_null : null.Finite := rfl

@[simp] theorem finite_bool (b : Bool) : (bool b).Finite := rfl

@[simp] theorem finite_int (n : Int) : (int n).Finite := rfl

@[simp] theorem finite_text (s : String) : (text s).Finite := rfl

theorem finite_float {x : Number.Binary64} (h : x.isFinite = true) : (float x).Finite := if_pos h

theorem Finite.list {vs : List Json} (h : ∀ v ∈ vs, v.Finite) : (list vs).Finite := by
  unfold Finite withFinite
  rw [withFiniteItems_eq_map, List.map_congr_left h, List.map_id']

theorem Finite.object {fs : List (String × Json)} (h : ∀ f ∈ fs, f.2.Finite) :
    (object fs).Finite := by
  have hfields : ∀ f ∈ fs, (f.1, f.2.withFinite) = f := fun f hf => by rw [h f hf]
  unfold Finite withFinite
  rw [withFiniteFields_eq_map, List.map_congr_left hfields, List.map_id']

end Json

end PerfReview
