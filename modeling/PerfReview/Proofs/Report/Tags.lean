import PerfReview.Report.Page

/-!
# Tags of a page

How the text of a page is read: each opening bracket starts a tag, which goes on to a character that
ends it, and references stand for the characters that mean something in markup. Two sequences of
fragments `Agree` if they differ in their values at most, and no value stands within a part of a tag
that is read; their texts then have the same brackets and the same tags.
-/

namespace PerfReview.Report

/-! ## References -/

/-- A text with the characters that its references stand for. -/
def unescape : List Char → List Char
  | '&' :: 'a' :: 'm' :: 'p' :: ';' :: s => '&' :: unescape s
  | '&' :: 'l' :: 't' :: ';' :: s => '<' :: unescape s
  | '&' :: 'g' :: 't' :: ';' :: s => '>' :: unescape s
  | '&' :: '#' :: '3' :: '4' :: ';' :: s => '\x22' :: unescape s
  | '&' :: '#' :: '3' :: '9' :: ';' :: s => '\x27' :: unescape s
  | c :: s => c :: unescape s
  | [] => []

theorem unescape_cons {c : Char} (h : c ≠ '&') (s : List Char) :
    unescape (c :: s) = c :: unescape s := by
  rw [unescape]
  all_goals exact fun _ e => absurd e h

theorem escape_cons (c : Char) (s : List Char) : Fragment.escape (c :: s) =
    ((Fragment.reference? c).map String.toList).getD [c] ++ Fragment.escape s := rfl

/-- A value is read as it was given. -/
theorem unescape_escape (s : List Char) : unescape (Fragment.escape s) = s := by
  induction s with
  | nil => rfl
  | cons c s ih =>
    rw [escape_cons]
    unfold Fragment.reference?
    split
    case h_6 h _ _ _ _ =>
      rw [Option.map_none, Option.getD_none, List.singleton_append, unescape_cons h, ih]
    all_goals
      rw [Option.map_some, Option.getD_some, String.toList_ofList]
      exact congrArg _ ih

theorem notMem_escape {b : Char} (hb : b = '<' ∨ b = '>') (s : List Char) :
    b ∉ Fragment.escape s := by
  induction s with
  | nil => exact List.not_mem_nil
  | cons c s ih =>
    rw [escape_cons, List.mem_append, not_or]
    refine ⟨?_, ih⟩
    unfold Fragment.reference?
    split
    case h_6 _ hlt hgt _ _ =>
      rcases hb with rfl | rfl
      · simpa using Ne.symm hlt
      · simpa using Ne.symm hgt
    all_goals
      rw [Option.map_some, Option.getD_some, String.toList_ofList]
      rcases hb with rfl | rfl <;> decide

/-! ## Tags -/

def isBracket (c : Char) : Bool := c = '<' || c = '>'

/-- What follows each opening bracket, up to a character of the class. -/
def tagsBy (p : Char → Bool) : List Char → List (List Char)
  | [] => []
  | c :: s => if c = '<' then s.takeWhile (!p ·) :: tagsBy p s else tagsBy p s

/-- Behind each opening bracket stands a character of the class. -/
def closes (p : Char → Bool) : List Char → Bool
  | [] => true
  | c :: s => (c ≠ '<' || s.any p) && closes p s

/-- The class of the character that ends a tag. -/
def endsTag (c : Char) : Bool := c = '>'

/-- The class of the characters that end the name of a tag. -/
def endsName (c : Char) : Bool := c = '>' || Text.isBlank c

def tags (page : String) : List (List Char) := tagsBy endsTag page.toList

/-- The names of the tags of a page; that of a closing tag starts with a slash. -/
def tagNames (page : String) : List (List Char) := tagsBy endsName page.toList

section
variable {p q : Char → Bool} {s t : List Char}

theorem takeWhile_append_of_any (h : s.any p = true) (t : List Char) :
    (s ++ t).takeWhile (!p ·) = s.takeWhile (!p ·) := by
  induction s with
  | nil => cases h
  | cons c s ih =>
    by_cases hc : p c = true
    · rw [List.cons_append, List.takeWhile_cons_of_neg (by simp [hc]),
        List.takeWhile_cons_of_neg (by simp [hc])]
    · have hrest : s.any p = true := by simpa [hc] using h
      rw [List.cons_append, List.takeWhile_cons_of_pos (by simp [hc]),
        List.takeWhile_cons_of_pos (by simp [hc]), ih hrest]

theorem tagsBy_append (h : closes p s = true) (t : List Char) :
    tagsBy p (s ++ t) = tagsBy p s ++ tagsBy p t := by
  induction s with
  | nil => rfl
  | cons c s ih =>
    obtain ⟨hc, hs⟩ := Bool.and_eq_true_iff.1 h
    rw [List.cons_append, tagsBy, tagsBy, ih hs]
    by_cases hopen : c = '<'
    · have hany : s.any p = true := by simpa [hopen] using hc
      rw [if_pos hopen, if_pos hopen, takeWhile_append_of_any hany]
      rfl
    · rw [if_neg hopen, if_neg hopen]

theorem closes_append (hs : closes p s = true) (ht : closes p t = true) :
    closes p (s ++ t) = true := by
  induction s with
  | nil => exact ht
  | cons c s ih =>
    obtain ⟨hc, hs⟩ := Bool.and_eq_true_iff.1 hs
    refine Bool.and_eq_true_iff.2 ⟨?_, ih hs⟩
    change (decide (c ≠ '<') || (s ++ t).any p) = true
    rw [List.any_append]
    rcases Bool.or_eq_true_iff.1 hc with hc | hc
    · exact Bool.or_eq_true_iff.2 (.inl hc)
    · exact Bool.or_eq_true_iff.2 (.inr (Bool.or_eq_true_iff.2 (.inl hc)))

theorem closes_mono (hpq : ∀ c, p c = true → q c = true) (h : closes p s = true) :
    closes q s = true := by
  induction s with
  | nil => rfl
  | cons c s ih =>
    obtain ⟨hc, hs⟩ := Bool.and_eq_true_iff.1 h
    refine Bool.and_eq_true_iff.2 ⟨?_, ih hs⟩
    rcases Bool.or_eq_true_iff.1 hc with hc | hc
    · exact Bool.or_eq_true_iff.2 (.inl hc)
    · obtain ⟨d, hd, hp⟩ := List.any_eq_true.1 hc
      exact Bool.or_eq_true_iff.2 (.inr (List.any_eq_true.2 ⟨d, hd, hpq d hp⟩))

theorem closes_of_notMem (h : '<' ∉ s) : closes p s = true := by
  induction s with
  | nil => rfl
  | cons c s ih =>
    rw [List.mem_cons, not_or] at h
    rw [closes, ih h.2]
    simp [Ne.symm h.1]

theorem tagsBy_of_notMem (h : '<' ∉ s) : tagsBy p s = [] := by
  induction s with
  | nil => rfl
  | cons c s ih =>
    rw [List.mem_cons, not_or] at h
    rw [tagsBy, if_neg (Ne.symm h.1), ih h.2]

/-- A value opens no tag. -/
theorem tagsBy_escape_append (v : List Char) : tagsBy p (Fragment.escape v ++ s) = tagsBy p s := by
  have hopen : '<' ∉ Fragment.escape v := notMem_escape (.inl rfl) v
  rw [tagsBy_append (closes_of_notMem hopen), tagsBy_of_notMem hopen, List.nil_append]

theorem filter_isBracket_escape (v : List Char) : (Fragment.escape v).filter isBracket = [] := by
  rw [List.filter_eq_nil_iff]
  intro c hc hbracket
  have hcases : c = '<' ∨ c = '>' := by simpa [isBracket] using hbracket
  exact notMem_escape hcases v hc

end

/-! ## Fragments -/

namespace Fragment

/-- The markup of a fragment; a value leaves a hole. -/
def markup? : Fragment → Option String
  | markup m => some m
  | value _ => none

def value? : Fragment → Option String
  | markup _ => none
  | value v => some v

end Fragment

/-- What fragments are without their values. -/
def skeleton (fs : List Fragment) : List (Option String) := fs.map (·.markup?)

def values (fs : List Fragment) : List String := fs.filterMap (·.value?)

/-- The holes of a skeleton filled with texts, one after the other. -/
def fill : List (Option String) → List (List Char) → List Char
  | [], _ => []
  | some m :: rest, texts => m.toList ++ fill rest texts
  | none :: rest, t :: texts => t ++ fill rest texts
  | none :: rest, [] => fill rest []

theorem toList_joined_cons (f : Fragment) (fs : List Fragment) :
    (joined (f :: fs)).toList = f.text.toList ++ (joined fs).toList := by
  rw [joined, List.map_cons, String.join_cons, String.toList_append]
  rfl

/-- The text of fragments is their skeleton with the values as references give them. -/
theorem toList_joined (fs : List Fragment) : (joined fs).toList =
    fill (skeleton fs) ((values fs).map fun v => Fragment.escape v.toList) := by
  induction fs with
  | nil => rfl
  | cons f fs ih =>
    rw [toList_joined_cons, ih]
    cases f with
    | markup m => rfl
    | value v => exact congrArg (· ++ _) String.toList_ofList

/-- Fragments that differ in their values at most, where a tag that is read up to a character of
the class holds no value that differs. -/
inductive Agree (p : Char → Bool) : List Fragment → List Fragment → Prop
  | nil : Agree p [] []
  | markup {m : String} {fs fs' : List Fragment} (hm : closes p m.toList = true)
      (h : Agree p fs fs') : Agree p (.markup m :: fs) (.markup m :: fs')
  | value {v v' : String} {fs fs' : List Fragment} (h : Agree p fs fs') :
      Agree p (.value v :: fs) (.value v' :: fs')
  /-- A value within a tag. -/
  | inside {before v after : String} {fs fs' : List Fragment}
      (hm : closes p (before.toList ++ Fragment.escape v.toList ++ after.toList) = true)
      (h : Agree p fs fs') :
      Agree p (.markup before :: .value v :: .markup after :: fs)
        (.markup before :: .value v :: .markup after :: fs')

namespace Agree

variable {p : Char → Bool} {fs fs' gs gs' : List Fragment}

theorem append (h : Agree p fs fs') (hg : Agree p gs gs') : Agree p (fs ++ gs) (fs' ++ gs') := by
  induction h with
  | nil => exact hg
  | markup hm _ ih => exact .markup hm ih
  | value _ ih => exact .value ih
  | inside hm _ ih => exact .inside hm ih

theorem flatMap {α β : Type} {k : α → β} {f g : α → List Fragment} {xs ys : List α}
    (hf : ∀ x y, k x = k y → Agree p (f x) (g y)) (h : xs.map k = ys.map k) :
    Agree p (xs.flatMap f) (ys.flatMap g) := by
  induction xs generalizing ys with
  | nil =>
    obtain rfl := List.map_eq_nil_iff.1 h.symm
    exact .nil
  | cons x xs ih =>
    cases ys with
    | nil => cases h
    | cons y ys =>
      obtain ⟨hxy, h⟩ := List.cons.inj h
      exact (hf x y hxy).append (ih h)

theorem flatMap_self {α : Type} {f g : α → List Fragment} (h : ∀ x, Agree p (f x) (g x))
    (xs : List α) : Agree p (xs.flatMap f) (xs.flatMap g) := by
  induction xs with
  | nil => exact .nil
  | cons x xs ih => exact (h x).append ih

theorem flatMap_of_length {α : Type} {f : α → List Fragment} {xs ys : List α}
    (h : ∀ x y, Agree p (f x) (f y)) (hlength : xs.length = ys.length) :
    Agree p (xs.flatMap f) (ys.flatMap f) :=
  flatMap (k := fun _ => ()) (fun x y _ => h x y) (by simp [List.map_const', hlength])

theorem skeleton_eq (h : Agree p fs fs') : skeleton fs = skeleton fs' := by
  induction h with
  | nil => rfl
  | markup _ _ ih => exact congrArg (_ :: ·) ih
  | value _ ih => exact congrArg (none :: ·) ih
  | inside _ _ ih => exact congrArg (_ :: none :: _ :: ·) ih

theorem brackets_eq (h : Agree p fs fs') :
    (joined fs).toList.filter isBracket = (joined fs').toList.filter isBracket := by
  have hvalue : ∀ v : String, (Fragment.value v).text.toList.filter isBracket = [] := fun v => by
    rw [Fragment.text, String.toList_ofList, filter_isBracket_escape]
  induction h with
  | nil => rfl
  | markup _ _ ih => rw [toList_joined_cons, toList_joined_cons, List.filter_append, ih,
      List.filter_append]
  | value _ ih => rw [toList_joined_cons, toList_joined_cons, List.filter_append, hvalue, ih,
      List.filter_append, hvalue]
  | inside _ _ ih => simp only [toList_joined_cons, List.filter_append, ih]

theorem tags_eq (h : Agree p fs fs') :
    tagsBy p (joined fs).toList = tagsBy p (joined fs').toList := by
  induction h with
  | nil => rfl
  | markup hm _ ih =>
    rw [toList_joined_cons, toList_joined_cons, Fragment.text, tagsBy_append hm, tagsBy_append hm,
      ih]
  | value _ ih =>
    rw [toList_joined_cons, toList_joined_cons, Fragment.text, Fragment.text,
      String.toList_ofList, String.toList_ofList, tagsBy_escape_append, tagsBy_escape_append, ih]
  | inside hm _ ih =>
    simp only [toList_joined_cons, Fragment.text, String.toList_ofList]
    rw [← List.append_assoc, ← List.append_assoc, ← List.append_assoc, ← List.append_assoc,
      tagsBy_append hm, tagsBy_append hm, ih]

end Agree

end PerfReview.Report
