import PerfReview.Proofs.Disk.Tidy

/-!
# Paths in normal form

A path in normal form is made of its start and its parts, and has them. Behind a path that is made so,
further parts make it no shorter.
-/

namespace PerfReview.Path

variable {a b p q : String} {ps qs : List String}

/-- The start of a path: no slash, one or two. -/
def IsAnchor (a : String) : Prop := a = "" ∨ a = "/" ∨ a = "//"

theorem isAnchor_anchor (p : String) : IsAnchor (anchor p) := by
  unfold anchor
  split <;> simp [IsAnchor]

/-- A part as a path in normal form has it. -/
def IsPart (p : String) : Prop := IsName p ∧ p ≠ "."

theorem isPart_of_mem_parts (h : p ∈ parts q) : IsPart p := by
  have hdot := (List.mem_filter.1 h).2
  exact ⟨isName_of_mem_parts h, by simp at hdot; exact hdot.2⟩

theorem parts_of_slash (h : p.toList = '/' :: q.toList) : parts p = parts q := by
  have hsplit := Text.splitOn_append_separator '/' [] q.toList
  rw [List.nil_append] at hsplit
  unfold parts
  rw [h, hsplit]
  rfl

theorem pieces_intercalate (hne : ps ≠ []) (hps : ∀ p ∈ ps, IsName p) :
    (Text.splitOn '/' (String.intercalate "/" ps).toList).map String.ofList = ps := by
  rw [Text.splitOn_intercalate rfl hne]
  clear hne
  induction ps with
  | nil => rfl
  | cons p ps ih =>
    obtain ⟨hp, hps⟩ := List.forall_mem_cons.1 hps
    rw [List.flatMap_cons, Text.splitOn_eq_singleton hp.2, List.map_append, ih hps]
    simp

theorem parts_intercalate (hne : ps ≠ []) (hps : ∀ p ∈ ps, IsPart p) :
    parts (String.intercalate "/" ps) = ps := by
  unfold parts
  rw [pieces_intercalate hne fun p hp => (hps p hp).1]
  refine List.filter_eq_self.2 fun p hp => ?_
  obtain ⟨⟨hempty, -⟩, hdot⟩ := hps p hp
  simp [hempty, hdot]

/-- The first part of a path begins with no slash. -/
theorem stops_intercalate (hps : ∀ p ∈ ps, IsPart p) :
    Text.Stops (· = '/') (String.intercalate "/" ps).toList := by
  cases ps with
  | nil => exact Text.stops_nil _
  | cons p ps =>
    obtain ⟨⟨hempty, hslash⟩, -⟩ := hps p (List.mem_cons_self ..)
    obtain ⟨c, t, hp⟩ := List.exists_cons_of_ne_nil fun e => hempty (String.toList_eq_nil_iff.1 e)
    have htext : ∃ u, (String.intercalate "/" (p :: ps)).toList = c :: u := by
      cases ps with
      | nil => exact ⟨t, by simpa using hp⟩
      | cons p' ps =>
        rw [String.intercalate_cons_cons, String.toList_append, String.toList_append, hp]
        exact ⟨_, rfl⟩
    obtain ⟨u, hu⟩ := htext
    rw [hu]
    exact Text.stops_cons (decide_eq_false fun e => hslash (by simp [hp, e]))

theorem build_cons (a p : String) (ps : List String) :
    build a (p :: ps) = a ++ String.intercalate "/" (p :: ps) := by
  simp [build]

theorem parts_build (ha : IsAnchor a) (hps : ∀ p ∈ ps, IsPart p) : parts (build a ps) = ps := by
  cases ps with
  | nil => obtain rfl | rfl | rfl := ha <;> decide +kernel
  | cons p ps =>
    have hparts := parts_intercalate (List.cons_ne_nil p ps) hps
    rw [build_cons]
    obtain rfl | rfl | rfl := ha
    · rwa [String.empty_append]
    · rw [parts_of_slash (q := String.intercalate "/" (p :: ps)) (by simp), hparts]
    · rw [parts_of_slash (q := "/" ++ String.intercalate "/" (p :: ps)) (by simp),
        parts_of_slash (q := String.intercalate "/" (p :: ps)) (by simp), hparts]

theorem anchor_build (ha : IsAnchor a) (hps : ∀ p ∈ ps, IsPart p) : anchor (build a ps) = a := by
  cases ps with
  | nil => obtain rfl | rfl | rfl := ha <;> decide +kernel
  | cons p ps =>
    have hstops := stops_intercalate hps
    rw [build_cons]
    generalize String.intercalate "/" (p :: ps) = text at hstops
    cases htext : text.toList with
    | nil => obtain rfl | rfl | rfl := ha <;> simp [anchor, htext]
    | cons c t =>
      have hc : c ≠ '/' := of_decide_eq_false (hstops c (by rw [htext]; rfl))
      obtain rfl | rfl | rfl := ha <;> simp [anchor, htext, hc]

theorem parts_normal (p : String) : parts (normal p) = parts p :=
  parts_build (isAnchor_anchor p) fun _ => isPart_of_mem_parts

theorem anchor_normal (p : String) : anchor (normal p) = anchor p :=
  anchor_build (isAnchor_anchor p) fun _ => isPart_of_mem_parts

/-! ## Lengths -/

theorem size_intercalate (ps qs : List String) : (String.intercalate "/" ps).utf8ByteSize ≤
    (String.intercalate "/" (ps ++ qs)).utf8ByteSize := by
  induction ps with
  | nil => exact Nat.zero_le _
  | cons p ps ih =>
    cases ps with
    | nil =>
      rw [String.intercalate_singleton]
      cases qs with
      | nil => exact Nat.le_of_eq (congrArg String.utf8ByteSize String.intercalate_singleton).symm
      | cons q qs =>
        rw [List.singleton_append, String.intercalate_cons_cons, String.append_assoc,
          String.utf8ByteSize_append]
        exact Nat.le_add_right _ _
    | cons p' ps =>
      rw [List.cons_append, List.cons_append, String.intercalate_cons_cons,
        String.intercalate_cons_cons]
      simp only [String.utf8ByteSize_append]
      exact Nat.add_le_add_left ih _

theorem size_build (hqs : ∀ q ∈ qs, IsName q) :
    (build a ps).utf8ByteSize ≤ (build a (ps ++ qs)).utf8ByteSize := by
  cases ps with
  | nil =>
    cases qs with
    | nil => exact Nat.le_refl _
    | cons q qs =>
      have hq : q.utf8ByteSize ≠ 0 := fun e =>
        (hqs q (List.mem_cons_self ..)).1 (String.utf8ByteSize_eq_zero_iff.1 e)
      have hsize := size_intercalate [q] qs
      rw [String.intercalate_singleton, List.singleton_append] at hsize
      rw [List.nil_append, build_cons, String.utf8ByteSize_append]
      by_cases ha : a = ""
      · -- the path of no parts is a dot
        have hdot : build a [] = "." := by rw [ha]; rfl
        have hone : (".").utf8ByteSize = 1 := by decide +kernel
        rw [hdot, hone]
        omega
      · have hbuild : build a [] = a := by simp [build, ha]
        rw [hbuild]
        omega
  | cons p ps =>
    rw [List.cons_append, build_cons, build_cons, String.utf8ByteSize_append,
      String.utf8ByteSize_append]
    exact Nat.add_le_add_left (size_intercalate (p :: ps) qs) _

theorem not_isAbsolute (h : IsName p) : isAbsolute p = false := by
  refine decide_eq_false fun e => h.2 ?_
  exact List.mem_of_mem_head? (by rw [e]; rfl)

theorem exists_build_join (p q : String) : ∃ a ps, IsAnchor a ∧ (∀ r ∈ ps, IsPart r) ∧
    join p q = build a ps := by
  unfold join
  split
  · exact ⟨_, _, isAnchor_anchor q, fun _ => isPart_of_mem_parts, rfl⟩
  · refine ⟨_, _, isAnchor_anchor p, fun r hr => ?_, rfl⟩
    rcases List.mem_append.1 hr with hr | hr <;> exact isPart_of_mem_parts hr

theorem size_join (p q : String) {name : String} (h : IsName name) :
    (join p q).utf8ByteSize ≤ (join (join p q) name).utf8ByteSize := by
  obtain ⟨a, ps, ha, hps, e⟩ := exists_build_join p q
  rw [e, join, if_neg (by rw [not_isAbsolute h]; exact Bool.false_ne_true), anchor_build ha hps,
    parts_build ha hps]
  exact size_build fun r hr => (isPart_of_mem_parts hr).1

/-- A way on from a path is no shorter than the path. -/
theorem size_foldl_join {names : List String} (p q : String) (h : ∀ n ∈ names, IsName n) :
    (join p q).utf8ByteSize ≤ (names.foldl join (join p q)).utf8ByteSize := by
  induction names generalizing p q with
  | nil => exact Nat.le_refl _
  | cons name names ih =>
    obtain ⟨hname, hnames⟩ := List.forall_mem_cons.1 h
    exact Nat.le_trans (size_join p q hname) (ih (join p q) name hnames)

/-- The paths on a way get no shorter. -/
theorem size_of_isPrefix {front names : List String} (root : String) (hpre : front <+: names)
    (hne : front ≠ []) (h : ∀ n ∈ names, IsName n) :
    (front.foldl join root).utf8ByteSize ≤ (names.foldl join root).utf8ByteSize := by
  obtain ⟨rest, rfl⟩ := hpre
  rw [← List.dropLast_append_getLast hne, List.append_assoc, List.foldl_append, List.foldl_append]
  exact size_foldl_join _ _ fun n hn => h n (List.mem_append_right _ hn)

end PerfReview.Path
