import PerfReview.Proofs.Assoc
import PerfReview.Proofs.Json.Scalar
import PerfReview.Value

/-!
# Reading what was written

`Reads d s v` says that the text `s` is read as the value `v` wherever it stands with at most `d`
containers inside. There is one rule for each form of a value, whatever white space stands between
its parts; both printers follow from the rules by induction on the value. A value is read back as
its `echo`, which differs from it in nothing but the floating-point numbers.
-/

namespace PerfReview.Json

open Text (Stops stops_nil stops_cons dropWhile_append_of_stops)

mutual

/-- The value with each floating-point number as its text is read. -/
def echo : Json → Json
  | .float x => Reader.reread x
  | .list items => .list (echoItems items)
  | .object fields => .object (echoFields fields)
  | j => j

def echoItems : List Json → List Json
  | [] => []
  | v :: vs => echo v :: echoItems vs

def echoFields : List (String × Json) → List (String × Json)
  | [] => []
  | (k, v) :: fs => (k, echo v) :: echoFields fs

end

theorem echoItems_eq_map (vs : List Json) : echoItems vs = vs.map echo := by
  induction vs with
  | nil => rfl
  | cons v vs ih => rw [echoItems, ih, List.map_cons]

theorem echoFields_eq_map (fs : List (String × Json)) :
    echoFields fs = fs.map fun f => (f.1, f.2.echo) := by
  induction fs with
  | nil => rfl
  | cons f fs ih => rw [echoFields, ih, List.map_cons]

/-- A value that a reader takes: at most so many containers stand in one another, and the names of
an object differ. -/
inductive Shaped : Nat → Json → Prop where
  | null {d : Nat} : Shaped d .null
  | bool {d : Nat} (b : Bool) : Shaped d (.bool b)
  | int {d : Nat} (n : Int) : Shaped d (.int n)
  | float {d : Nat} (x : Number.Binary64) : Shaped d (.float x)
  | text {d : Nat} (s : String) : Shaped d (.text s)
  | list {d : Nat} {items : List Json} (h : ∀ v ∈ items, Shaped d v) : Shaped (d + 1) (.list items)
  | object {d : Nat} {fields : List (String × Json)} (hn : (fields.map (·.1)).Nodup)
    (h : ∀ f ∈ fields, Shaped d f.2) : Shaped (d + 1) (.object fields)

attribute [simp] Shaped.null Shaped.bool Shaped.int Shaped.float Shaped.text

/-- The value holds no integer that is too long to be written. -/
def Writable (j : Json) : Prop := j.toValue.isUnwritable = false

theorem anyUnwritable_toValues {vs : List Json} :
    Value.anyUnwritable (toValues vs) = false ↔ ∀ v ∈ vs, v.Writable := by
  induction vs with
  | nil => simp [toValues, Value.anyUnwritable]
  | cons v vs ih => simp [toValues, Value.anyUnwritable, ih, Writable]

theorem anyUnwritableEntry_toEntries {fs : List (String × Json)} :
    Value.anyUnwritableEntry (toEntries fs) = false ↔ ∀ f ∈ fs, f.2.Writable := by
  induction fs with
  | nil => simp [toEntries, Value.anyUnwritableEntry]
  | cons f fs ih => simp [toEntries, Value.anyUnwritableEntry, Value.isUnwritable, ih, Writable]

theorem writable_list {vs : List Json} : (list vs).Writable ↔ ∀ v ∈ vs, v.Writable :=
  anyUnwritable_toValues

theorem writable_object {fs : List (String × Json)} :
    (object fs).Writable ↔ ∀ f ∈ fs, f.2.Writable :=
  anyUnwritableEntry_toEntries

theorem writable_int {n : Int} : (int n).Writable ↔ n.natAbs < 10 ^ Number.maxDigits := by
  rw [Writable, toValue, Value.isUnwritable, decide_eq_false_iff_not, Nat.not_le,
    Nat.pow_eq]

theorem writable_of_lt {n : Nat} (h : n < 10 ^ 6) : (int n).Writable :=
  writable_int.2 <| by
    rw [Int.natAbs_natCast]
    exact Nat.lt_of_lt_of_le h (Nat.pow_le_pow_right (by decide) (by decide))

namespace Reader

/-! ## White space -/

def Spaces (g : List Char) : Prop := ∀ c ∈ g, isSpace c = true

theorem skipSpace_append {g s : List Char} (hg : Spaces g) (hs : Stops isSpace s) :
    skipSpace (g ++ s) = s :=
  dropWhile_append_of_stops hg hs

theorem skipSpace_comma (t : List Char) : skipSpace (',' :: t) = ',' :: t := rfl

theorem goesOn_of_isSpace {c : Char} (h : isSpace c = true) : goesOn c = false := by
  simp only [isSpace, Bool.or_eq_true, decide_eq_true_eq] at h
  rcases h with ((rfl | rfl) | rfl) | rfl <;> decide

theorem Spaces.ends {g t : List Char} (hg : Spaces g) (ht : Ends t) : Ends (g ++ t) := by
  cases g with
  | nil => exact ht
  | cons c g => exact stops_cons (goesOn_of_isSpace (hg c List.mem_cons_self))

/-- The text is read as the value wherever it stands. -/
structure Reads (d : Nat) (s : List Char) (v : Json) : Prop where
  /-- It starts neither with white space nor with the end of a list. -/
  starts : ∃ c t, s = c :: t ∧ isSpace c = false ∧ c ≠ ']'
  value_succ : ∀ fuel rest, s.length ≤ fuel + 1 → Ends rest →
    value (fuel + 1) d (s ++ rest) = .ok (v, rest)

namespace Reads

variable {d fuel : Nat} {s rest : List Char} {v : Json}

theorem stops (h : Reads d s v) (rest : List Char) : Stops isSpace (s ++ rest) := by
  obtain ⟨c, t, rfl, hc, -⟩ := h.starts
  exact stops_cons hc

theorem length_pos (h : Reads d s v) : 0 < s.length := by
  obtain ⟨c, t, rfl, -, -⟩ := h.starts
  exact Nat.succ_pos _

theorem value_eq (h : Reads d s v) (hf : s.length ≤ fuel) (hr : Ends rest) :
    value fuel d (s ++ rest) = .ok (v, rest) := by
  obtain ⟨fuel, rfl⟩ := Nat.exists_eq_add_of_le' (Nat.le_trans h.length_pos hf)
  exact h.value_succ fuel rest hf hr

/-! ## Scalars -/

theorem of_scalar {c : Char} {t : List Char} (hc : c ∉ marks)
    (h : ∀ rest, Ends rest → scalar (c :: t ++ rest) = .ok (v, rest)) : Reads d (c :: t) v where
  starts := ⟨c, t, rfl, not_isSpace_of_notMem_marks hc, fun e => hc (by simp [marks, e])⟩
  value_succ fuel rest hf hr := by
    rw [← h rest hr, List.cons_append]
    simp only [marks, List.mem_cons, not_or] at hc
    rw [value] <;> simp [hc]

theorem null : Reads d "null".toList .null := of_scalar (by decide) fun _ _ => rfl

theorem bool (b : Bool) : Reads d (if b then "true".toList else "false".toList) (.bool b) := by
  cases b <;> exact of_scalar (by decide) fun _ _ => rfl

theorem int {n : Int} (h : n.natAbs < 10 ^ Number.maxDigits) :
    Reads d (Number.intText n).toList (.int n) := by
  obtain ⟨c, t, e, hc⟩ := exists_cons_int n
  exact e ▸ of_scalar hc fun rest hr => e ▸ scalar_int h hr

theorem float (x : Number.Binary64) : Reads d (Number.Layout.json.text x).toList (reread x) := by
  obtain ⟨c, t, e, hc⟩ := exists_cons_float x
  exact e ▸ of_scalar hc fun rest hr => e ▸ scalar_float x hr

theorem text (s : String) : Reads d (Printer.string s) (.text s) where
  starts := ⟨_, _, rfl, rfl, by decide⟩
  value_succ fuel rest hf hr := by
    rw [Printer.string, List.append_assoc, List.cons_append, value, List.singleton_append,
      stringBody_flatMap]
    simp [Except.map]

/-! ## Containers -/

variable {w : Json → List Char} {g g' gap t : List Char} {u : Json} {us done : List Json}
  {f : String × Json} {fs pairs : List (String × Json)}

/-- The further items of a list, each behind a comma and white space. -/
def further (g : List Char) (w : Json → List Char) (us : List Json) : List Char :=
  us.flatMap fun u => ',' :: (g ++ w u)

/-- A field: its name, a colon, white space and its value. -/
def entry (gap : List Char) (w : Json → List Char) (f : String × Json) : List Char :=
  Printer.string f.1 ++ ':' :: (gap ++ w f.2)

def furtherFields (g gap : List Char) (w : Json → List Char) (fs : List (String × Json)) :
    List Char :=
  fs.flatMap fun f => ',' :: (g ++ entry gap w f)

theorem ends_further (hg' : Spaces g') (c : Char) (hc : goesOn c = false) :
    Ends (further g w us ++ (g' ++ c :: rest)) := by
  cases us with
  | nil => exact hg'.ends (stops_cons hc)
  | cons u us => exact stops_cons (by decide)

theorem skipSpace_mark (hg' : Spaces g') {c : Char} (hc : isSpace c = false) (t : List Char) :
    skipSpace (g' ++ c :: t) = c :: t :=
  skipSpace_append hg' (stops_cons hc)

theorem items_succ (h : Reads d s v) (hf : s.length ≤ fuel) (ht : Ends t) :
    items (fuel + 1) d done (s ++ t) =
      match skipSpace t with
      | ',' :: t => items fuel d (v :: done) (skipSpace t)
      | ']' :: t => .ok (.list (v :: done).reverse, t)
      | _ => .error .malformed := by
  have hvalue := h.value_eq hf ht
  rw [items]
  generalize value fuel d (s ++ t) = read at hvalue
  subst hvalue
  rfl

theorem items_eq (done : List Json) (fuel : Nat) (rest : List Char) (hg : Spaces g)
    (hg' : Spaces g') (h : ∀ v ∈ u :: us, Reads d (w v) v.echo)
    (hf : (w u ++ (further g w us ++ (g' ++ [']']))).length ≤ fuel) :
    items fuel d done (w u ++ (further g w us ++ (g' ++ ']' :: rest))) =
      .ok (.list (done.reverse ++ (u :: us).map echo), rest) := by
  induction us generalizing u done fuel with
  | nil =>
    obtain ⟨fuel, rfl⟩ := Nat.exists_eq_add_of_le' (show 1 ≤ fuel by simp at hf; omega)
    rw [items_succ (List.forall_mem_cons.1 h).1 (by simp at hf; omega)
      (ends_further hg' ']' (by decide))]
    simp only [further, List.flatMap_nil, List.nil_append,
      skipSpace_mark hg' (by decide : isSpace ']' = false)]
    simp
  | cons u' us ih =>
    obtain ⟨hu, hus⟩ := List.forall_mem_cons.1 h
    obtain ⟨fuel, rfl⟩ := Nat.exists_eq_add_of_le' (show 1 ≤ fuel by simp at hf; omega)
    have hfurther : further g w (u' :: us) = ',' :: (g ++ (w u' ++ further g w us)) := by
      simp [further]
    have hnext := skipSpace_append hg
      ((List.forall_mem_cons.1 hus).1.stops (further g w us ++ (g' ++ ']' :: rest)))
    have hlength : (w u' ++ (further g w us ++ (g' ++ [']']))).length ≤ fuel := by
      have := hu.length_pos
      simp [hfurther] at hf ⊢
      omega
    rw [items_succ hu (by simp at hf; omega) (ends_further hg' ']' (by decide)), hfurther]
    simp only [List.cons_append, List.append_assoc, skipSpace_comma, hnext]
    rw [ih _ _ hus hlength]
    simp

theorem list_nil : Reads (d + 1) "[]".toList (.list []) where
  starts := ⟨_, _, rfl, by decide, by decide⟩
  value_succ _ _ _ _ := rfl

theorem list_cons (hg : Spaces g) (hg' : Spaces g') (h : ∀ v ∈ u :: us, Reads d (w v) v.echo) :
    Reads (d + 1) ('[' :: (g ++ (w u ++ (further g w us ++ (g' ++ [']'])))))
      (.list ((u :: us).map echo)) where
  starts := ⟨_, _, rfl, by decide, by decide⟩
  value_succ fuel rest hf hr := by
    have hu := (List.forall_mem_cons.1 h).1
    have hskip := skipSpace_append hg (hu.stops (further g w us ++ (g' ++ ']' :: rest)))
    have hitems := items_eq [] fuel rest hg hg' h (by simp at hf ⊢; omega)
    obtain ⟨c, t, hw, -, hc⟩ := hu.starts
    simp only [List.cons_append, List.append_assoc, List.nil_append, value, hskip]
    rw [hw, List.cons_append] at hitems ⊢
    split
    · rename_i e
      exact absurd (List.cons.inj e).1 hc
    · exact hitems

/-- A field starts with the mark of its name, and its name is read up to the colon. -/
theorem entry_append (f : String × Json) (t : List Char) :
    entry gap w f ++ t = '\x22' :: (f.1.toList.flatMap Printer.escaped ++
      '\x22' :: ':' :: (gap ++ (w f.2 ++ t))) := by
  simp [entry, Printer.string]

theorem ends_furtherFields (hg' : Spaces g') (c : Char) (hc : goesOn c = false) :
    Ends (furtherFields g gap w fs ++ (g' ++ c :: rest)) := by
  cases fs with
  | nil => exact hg'.ends (stops_cons hc)
  | cons f fs => exact stops_cons (by decide)

theorem fields_succ (hgap : Spaces gap) (h : Reads d (w f.2) v) (hf : (w f.2).length ≤ fuel)
    (ht : Ends t) :
    fields (fuel + 1) d pairs (entry gap w f ++ t) =
      match skipSpace t with
      | ',' :: t => fields fuel d ((f.1, v) :: pairs) (skipSpace t)
      | '\x7d' :: t => .ok (.object (Assoc.ofPairs ((f.1, v) :: pairs).reverse), t)
      | _ => .error .malformed := by
  have hcolon : ∀ t, skipSpace (':' :: t) = ':' :: t := fun _ => rfl
  have hvalue := h.value_eq hf ht
  rw [entry_append, fields]
  simp only [stringBody_flatMap, hcolon, skipSpace_append hgap (h.stops t),
    List.reverse_nil, List.nil_append, String.ofList_toList]
  generalize value fuel d (w f.2 ++ t) = read at hvalue
  subst hvalue
  rfl

theorem skipSpace_entry (hg : Spaces g) (f : String × Json) (t : List Char) :
    skipSpace (g ++ (entry gap w f ++ t)) = entry gap w f ++ t :=
  skipSpace_append hg (by
    rw [entry_append]
    exact stops_cons (by decide))

theorem fields_eq (pairs : List (String × Json)) (fuel : Nat) (rest : List Char) (hg : Spaces g)
    (hg' : Spaces g') (hgap : Spaces gap) (h : ∀ p ∈ f :: fs, Reads d (w p.2) p.2.echo)
    (hf : (entry gap w f ++ (furtherFields g gap w fs ++ (g' ++ ['\x7d']))).length ≤ fuel) :
    fields fuel d pairs (entry gap w f ++ (furtherFields g gap w fs ++ (g' ++ '\x7d' :: rest))) =
      .ok (.object (Assoc.ofPairs
        (pairs.reverse ++ (f :: fs).map fun p => (p.1, p.2.echo))), rest) := by
  induction fs generalizing f pairs fuel with
  | nil =>
    obtain ⟨fuel, rfl⟩ := Nat.exists_eq_add_of_le' (show 1 ≤ fuel by simp at hf; omega)
    rw [fields_succ hgap (List.forall_mem_cons.1 h).1 (by simp [entry] at hf; omega)
      (ends_furtherFields hg' '\x7d' (by decide))]
    simp only [furtherFields, List.flatMap_nil, List.nil_append,
      skipSpace_mark hg' (by decide : isSpace '\x7d' = false)]
    simp
  | cons f' fs ih =>
    obtain ⟨hv, hfs⟩ := List.forall_mem_cons.1 h
    obtain ⟨fuel, rfl⟩ := Nat.exists_eq_add_of_le' (show 1 ≤ fuel by simp at hf; omega)
    have hfurther : furtherFields g gap w (f' :: fs) =
        ',' :: (g ++ (entry gap w f' ++ furtherFields g gap w fs)) := by
      simp [furtherFields]
    have hlength : (entry gap w f' ++ (furtherFields g gap w fs ++ (g' ++ ['\x7d']))).length ≤
        fuel := by
      simp [hfurther] at hf ⊢
      omega
    rw [fields_succ hgap hv (by simp [entry] at hf; omega)
      (ends_furtherFields hg' '\x7d' (by decide)), hfurther]
    simp only [List.cons_append, List.append_assoc, skipSpace_comma, skipSpace_entry hg]
    rw [ih _ _ hfs hlength]
    simp

theorem object_nil : Reads (d + 1) ['\x7b', '\x7d'] (.object []) where
  starts := ⟨_, _, rfl, by decide, by decide⟩
  value_succ _ _ _ _ := rfl

theorem object_cons (hg : Spaces g) (hg' : Spaces g') (hgap : Spaces gap)
    (hn : ((f :: fs).map (·.1)).Nodup) (h : ∀ p ∈ f :: fs, Reads d (w p.2) p.2.echo) :
    Reads (d + 1)
      ('\x7b' :: (g ++ (entry gap w f ++ (furtherFields g gap w fs ++ (g' ++ ['\x7d'])))))
      (.object ((f :: fs).map fun p => (p.1, p.2.echo))) where
  starts := ⟨_, _, rfl, by decide, by decide⟩
  value_succ fuel rest hf hr := by
    have hfields := fields_eq [] fuel rest hg hg' hgap h (by simp at hf ⊢; omega)
    have hnodup : (((f :: fs).map fun p => (p.1, p.2.echo)).map (·.1)).Nodup := by
      rw [List.map_map]
      exact hn
    rw [List.reverse_nil, List.nil_append, Assoc.ofPairs_eq_self hnodup] at hfields
    simp only [List.cons_append, List.append_assoc, List.nil_append, value, skipSpace_entry hg]
    rw [entry_append] at hfields ⊢
    exact hfields

end Reads

/-! ## The printers -/

theorem spaces_newline (depth : Nat) : Spaces (Printer.newline depth) := by
  intro c hc
  rcases List.mem_cons.1 hc with rfl | hc
  · rfl
  · rw [List.eq_of_mem_replicate hc]
    rfl

theorem spaces_nil : Spaces [] := List.forall_mem_nil _

theorem spaces_blank : Spaces [' '] := List.forall_mem_cons.2 ⟨rfl, spaces_nil⟩

theorem items_eq_further (depth : Nat) (us : List Json) : Printer.items depth us =
    Reads.further (Printer.newline (depth + 1)) (Printer.value (depth + 1)) us := by
  induction us with
  | nil => rfl
  | cons u us ih => simp [Printer.items, Reads.further, ih]

theorem fields_eq_further (depth : Nat) (fs : List (String × Json)) : Printer.fields depth fs =
    Reads.furtherFields (Printer.newline (depth + 1)) [' '] (Printer.value (depth + 1)) fs := by
  induction fs with
  | nil => rfl
  | cons f fs ih => simp [Printer.fields, Reads.furtherFields, Reads.entry, ih]

/-- A value over several lines is read as its echo. -/
theorem reads_value {d : Nat} {j : Json} (h : Shaped d j) (hw : j.Writable) (depth : Nat) :
    Reads d (Printer.value depth j) j.echo := by
  induction h generalizing depth with
  | null => exact Reads.null
  | bool b =>
    cases b with
    | false => exact Reads.bool false
    | true => exact Reads.bool true
  | int n => exact Reads.int (writable_int.1 hw)
  | float x => exact Reads.float x
  | text s => exact Reads.text s
  | @list d items h ih =>
    have ih := fun v hv => ih v hv (writable_list.1 hw v hv) (depth + 1)
    cases items with
    | nil => exact Reads.list_nil
    | cons u us =>
      rw [echo, echoItems_eq_map]
      simpa [Printer.value, items_eq_further] using
        Reads.list_cons (spaces_newline (depth + 1)) (spaces_newline depth) ih
  | @object d fields hn h ih =>
    have ih := fun f hf => ih f hf (writable_object.1 hw f hf) (depth + 1)
    cases fields with
    | nil => exact Reads.object_nil
    | cons f fs =>
      rw [echo, echoFields_eq_map]
      simpa [Printer.value, fields_eq_further, Reads.entry] using
        Reads.object_cons (spaces_newline (depth + 1)) (spaces_newline depth) spaces_blank hn ih

theorem lineItems_eq_further (us : List Json) : Printer.lineItems Printer.denseLine us =
    Reads.further [] (Printer.line Printer.denseLine) us := by
  induction us with
  | nil => rfl
  | cons u us ih =>
    rw [Printer.lineItems, ih]
    simp [Printer.denseLine, Reads.further]

theorem lineFields_eq_further (fs : List (String × Json)) :
    Printer.lineFields Printer.denseLine fs =
      Reads.furtherFields [] [] (Printer.line Printer.denseLine) fs := by
  induction fs with
  | nil => rfl
  | cons f fs ih =>
    rw [Printer.lineFields, ih]
    simp [Printer.denseLine, Printer.lineString, Printer.string, Reads.furtherFields, Reads.entry]

/-- A value on one line is read as its echo. -/
theorem reads_line {d : Nat} {j : Json} (h : Shaped d j) (hw : j.Writable) :
    Reads d (Printer.line Printer.denseLine j) j.echo := by
  induction h with
  | null => exact Reads.null
  | bool b =>
    cases b with
    | false => exact Reads.bool false
    | true => exact Reads.bool true
  | int n => exact Reads.int (writable_int.1 hw)
  | float x => exact Reads.float x
  | text s => exact Reads.text s
  | @list d items h ih =>
    have ih := fun v hv => ih v hv (writable_list.1 hw v hv)
    cases items with
    | nil => exact Reads.list_nil
    | cons u us =>
      rw [echo, echoItems_eq_map]
      simpa [Printer.line, lineItems_eq_further] using Reads.list_cons spaces_nil spaces_nil ih
  | @object d fields hn h ih =>
    have ih := fun f hf => ih f hf (writable_object.1 hw f hf)
    cases fields with
    | nil => exact Reads.object_nil
    | cons f fs =>
      rw [echo, echoFields_eq_map]
      have hread := Reads.object_cons (w := Printer.line Printer.denseLine) spaces_nil spaces_nil
        spaces_nil hn ih
      rw [← lineFields_eq_further] at hread
      simpa [Printer.line, Reads.entry, Printer.lineString, Printer.string, Printer.denseLine]
        using hread

/-- A document is read as the value that its text is read as, white space behind it aside. -/
theorem read_eq [Room] {s g : List Char} {v : Json} (h : Reads Room.maxDepth s v) (hg : Spaces g) :
    Json.read (String.ofList (s ++ g)) = .ok v := by
  have hskip : skipSpace (s ++ g) = s ++ g := skipSpace_append spaces_nil (h.stops g)
  have hends : Ends g := List.append_nil g ▸ hg.ends (stops_nil goesOn)
  have hvalue : value ((s ++ g).length + 1) Room.maxDepth (s ++ g) = .ok (v, g) :=
    h.value_eq (by simp; omega) hends
  have hrest : skipSpace g = [] := by
    simpa using skipSpace_append hg (stops_nil isSpace)
  simp only [Json.read, String.toList_ofList, hskip, hvalue, hrest, List.isEmpty_nil, if_true]

end Reader

theorem read_print [Room] {j : Json} (h : Shaped Room.maxDepth j) (hw : j.Writable) :
    Json.read (j.print ++ "\n") = .ok j.echo := by
  have hnewline : Reader.Spaces ['\n'] := List.forall_mem_cons.2 ⟨rfl, Reader.spaces_nil⟩
  have := Reader.read_eq (Reader.reads_value h hw 0) hnewline
  rwa [String.ofList_append] at this

theorem read_dense [Room] {j : Json} (h : Shaped Room.maxDepth j) (hw : j.Writable) :
    Json.read j.dense = .ok j.echo := by
  have := Reader.read_eq (Reader.reads_line h hw) Reader.spaces_nil
  rwa [List.append_nil] at this

end PerfReview.Json
