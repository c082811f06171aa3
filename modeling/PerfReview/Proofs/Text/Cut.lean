import Mathlib.Data.List.TakeDrop
import PerfReview.Text.Blank
import PerfReview.Text.Lines

/-!
# Cutting texts

`Stops p s` says that `s` does not begin with a character of the class `p`; a run of such characters
in front of it is then cut off whole. `stack ls` is the text of the lines `ls` with a line feed
before each; where it meets a label or a further line feed, the lines are cut accordingly.
-/

namespace PerfReview.Text

/-! ## Runs -/

/-- Spaces and tabs only. -/
def Gaps (s : List Char) : Prop := ∀ c ∈ s, isGap c = true

/-- White space only, line feeds included. -/
def White (s : List Char) : Prop := ∀ c ∈ s, isBlank c = true

/-- The text does not begin with a character of the class. -/
def Stops (p : Char → Bool) (s : List Char) : Prop := ∀ c, s.head? = some c → p c = false

theorem stops_nil (p : Char → Bool) : Stops p [] := by
  intro c h
  cases h

theorem stops_cons {p : Char → Bool} {c : Char} {s : List Char} (h : p c = false) :
    Stops p (c :: s) := by
  intro d hd
  cases hd
  exact h

theorem stops_dropWhile (p : Char → Bool) (s : List Char) : Stops p (s.dropWhile p) := by
  intro c hc
  have := List.head?_dropWhile_not p s
  rw [hc] at this
  simpa using this

theorem dropWhile_append_of_stops {p : Char → Bool} {g s : List Char}
    (hg : ∀ c ∈ g, p c = true) (hs : Stops p s) : (g ++ s).dropWhile p = s := by
  rw [List.dropWhile_append_of_pos hg]
  cases s with
  | nil => rfl
  | cons c s => rw [List.dropWhile_cons_of_neg (by simp [hs c rfl])]

theorem span_append_of_stops {p : Char → Bool} {g s : List Char}
    (hg : ∀ c ∈ g, p c = true) (hs : Stops p s) : (g ++ s).span p = (g, s) := by
  rw [List.span_eq_takeWhile_dropWhile, dropWhile_append_of_stops hg hs]
  rw [List.takeWhile_append_of_pos hg]
  cases s with
  | nil => simp
  | cons c s => rw [List.takeWhile_cons_of_neg (by simp [hs c rfl]), List.append_nil]

/-- A text is a run of the class and a rest that does not begin with the class. -/
theorem eq_run_append (p : Char → Bool) (s : List Char) :
    ∃ g, (∀ c ∈ g, p c = true) ∧ s = g ++ s.dropWhile p :=
  ⟨s.takeWhile p, fun _ hc => List.all_eq_true.1 List.all_takeWhile _ hc,
    List.takeWhile_append_dropWhile.symm⟩

theorem eq_of_span {p : Char → Bool} {s g t : List Char} (h : s.span p = (g, t)) :
    s = g ++ t ∧ (∀ c ∈ g, p c = true) ∧ Stops p t := by
  rw [List.span_eq_takeWhile_dropWhile] at h
  cases h
  exact ⟨List.takeWhile_append_dropWhile.symm,
    fun _ hc => List.all_eq_true.1 List.all_takeWhile _ hc, stops_dropWhile p s⟩

/-! ## Lines -/

/-- The text of lines with a line feed before each. -/
def stack (ls : List (List Char)) : List Char := ls.flatMap ('\n' :: ·)

def Feedless (ls : List (List Char)) : Prop := ∀ l ∈ ls, '\n' ∉ l

@[simp] theorem stack_nil : stack [] = [] := rfl

@[simp] theorem stack_cons (l : List Char) (ls : List (List Char)) :
    stack (l :: ls) = '\n' :: (l ++ stack ls) := rfl

@[simp] theorem stack_append (ls ls' : List (List Char)) :
    stack (ls ++ ls') = stack ls ++ stack ls' := List.flatMap_append

theorem Feedless.head {l : List Char} {ls : List (List Char)} (h : Feedless (l :: ls)) :
    '\n' ∉ l := h l List.mem_cons_self

theorem Feedless.tail {l : List Char} {ls : List (List Char)} (h : Feedless (l :: ls)) :
    Feedless ls := fun k hk => h k (List.mem_cons_of_mem l hk)

theorem Feedless.of_suffix {ls ls' : List (List Char)} (h : Feedless ls) (hs : ls' <:+ ls) :
    Feedless ls' := fun k hk => h k (hs.subset hk)

theorem cut_at_feed {v x y : List Char} {ls : List (List Char)} (hv : '\n' ∉ v)
    (hls : Feedless ls) (h : v ++ stack ls = x ++ '\n' :: y) :
    ∃ a b, ls = a ++ b ∧ x = v ++ stack a ∧ stack b = '\n' :: y := by
  induction ls generalizing v x with
  | nil =>
    rw [stack_nil, List.append_nil] at h
    exact absurd (by simp [h]) hv
  | cons l ls ih =>
    rcases List.append_eq_append_iff.1 h with ⟨u, rfl, hu⟩ | ⟨u, rfl, hu⟩
    · cases u with
      | nil => exact ⟨[], l :: ls, rfl, by simp, hu⟩
      | cons c u =>
        rw [stack_cons, List.cons_append, List.cons.injEq] at hu
        obtain ⟨rfl, hu⟩ := hu
        obtain ⟨a, b, rfl, rfl, hb⟩ := ih hls.head hls.tail hu
        exact ⟨l :: a, b, rfl, by simp, hb⟩
    · cases u with
      | nil => exact ⟨[], l :: ls, rfl, by simp, hu.symm⟩
      | cons c u =>
        obtain ⟨rfl, -⟩ := List.cons.inj hu
        exact absurd (by simp) hv

/-- A text without line feeds at the front of the text of lines lies in the first of them. -/
theorem cut_after {v p z : List Char} {ls : List (List Char)} (hp : '\n' ∉ p)
    (h : v ++ stack ls = p ++ z) : ∃ u, v = p ++ u ∧ z = u ++ stack ls := by
  rcases List.append_eq_append_iff.1 h with ⟨u, rfl, hu⟩ | ⟨u, rfl, hu⟩
  · cases ls with
    | nil =>
      obtain ⟨rfl, rfl⟩ := List.append_eq_nil_iff.1 hu.symm
      exact ⟨[], by simp, rfl⟩
    | cons l ls =>
      cases u with
      | nil => exact ⟨[], by simp, hu.symm⟩
      | cons c u =>
        obtain ⟨rfl, -⟩ := List.cons.inj hu
        exact absurd (by simp) hp
  · exact ⟨u, rfl, hu⟩

/-- Two texts that are the same up to their first line feeds. -/
theorem cut_at_first_feed {v x y : List Char} {ls : List (List Char)} (hv : '\n' ∉ v)
    (hx : '\n' ∉ x) (hls : Feedless ls) (h : v ++ stack ls = x ++ '\n' :: y) :
    x = v ∧ stack ls = '\n' :: y := by
  obtain ⟨a, b, rfl, rfl, hb⟩ := cut_at_feed hv hls h
  cases a with
  | nil => exact ⟨by simp, hb⟩
  | cons a as => exact absurd (by simp) hx

/-- What stands between two line feeds in the text of lines is a line. -/
theorem cut_line {l y : List Char} {ls : List (List Char)} (hl : '\n' ∉ l) (hls : Feedless ls)
    (h : stack ls = '\n' :: (l ++ '\n' :: y)) : ∃ ls', ls = l :: ls' ∧ stack ls' = '\n' :: y := by
  cases ls with
  | nil => cases h
  | cons k ls =>
    obtain ⟨-, h⟩ := List.cons.inj h
    obtain ⟨rfl, hls'⟩ := cut_at_first_feed hls.head hl hls.tail h
    exact ⟨ls, rfl, hls'⟩

/-! ## Pieces between line feeds -/

theorem stack_extendFirst (c : Char) {ls : List (List Char)} (h : ls ≠ []) :
    stack (extendFirst c ls) = '\n' :: c :: (stack ls).tail := by
  obtain ⟨l, ls, rfl⟩ := List.exists_cons_of_ne_nil h
  rfl

theorem splitOn_cons (separator c : Char) (s : List Char) : splitOn separator (c :: s) =
    if c = separator then [] :: splitOn separator s else extendFirst c (splitOn separator s) := rfl

theorem splitFeeds_cons (c : Char) (s : List Char) : splitFeeds (c :: s) =
    if c = '\n' then [] :: splitFeeds s else extendFirst c (splitFeeds s) := rfl

/-- The pieces of a text, each with its line feed, make up the text. -/
theorem stack_splitFeeds (s : List Char) : stack (splitFeeds s) = '\n' :: s := by
  induction s with
  | nil => rfl
  | cons c s ih =>
    rw [splitFeeds_cons]
    split
    · rename_i hc
      rw [stack_cons, ih, hc]
      rfl
    · have hne : splitFeeds s ≠ [] := splitOn_ne_nil '\n' s
      rw [stack_extendFirst c hne, ih]
      rfl

theorem notMem_extendFirst {separator c : Char} {ls : List (List Char)} (hc : separator ≠ c)
    (h : ∀ l ∈ ls, separator ∉ l) : ∀ l ∈ extendFirst c ls, separator ∉ l := by
  cases ls with
  | nil => exact List.forall_mem_singleton.2 (by simpa using hc)
  | cons l ls =>
    obtain ⟨hl, hls⟩ := List.forall_mem_cons.1 h
    exact List.forall_mem_cons.2 ⟨by simp [hc, hl], hls⟩

theorem notMem_splitOn (separator : Char) (s : List Char) :
    ∀ l ∈ splitOn separator s, separator ∉ l := by
  induction s with
  | nil => exact List.forall_mem_singleton.2 (by simp)
  | cons c s ih =>
    change ∀ l ∈ (if c = separator then [] :: splitOn separator s
      else extendFirst c (splitOn separator s)), separator ∉ l
    split
    · exact List.forall_mem_cons.2 ⟨by simp, ih⟩
    · rename_i hc
      exact notMem_extendFirst (Ne.symm hc) ih

theorem feedless_splitFeeds (s : List Char) : Feedless (splitFeeds s) := notMem_splitOn '\n' s

theorem splitOn_append_separator (separator : Char) (s t : List Char) :
    splitOn separator (s ++ separator :: t) = splitOn separator s ++ splitOn separator t := by
  induction s with
  | nil => rw [List.nil_append, splitOn_cons, if_pos rfl]; rfl
  | cons c s ih =>
    rw [List.cons_append, splitOn_cons, splitOn_cons, ih]
    split
    · rfl
    · obtain ⟨l, ls, e⟩ := List.exists_cons_of_ne_nil (splitOn_ne_nil separator s)
      rw [e]
      rfl

theorem splitFeeds_append_feed (s t : List Char) :
    splitFeeds (s ++ '\n' :: t) = splitFeeds s ++ splitFeeds t :=
  splitOn_append_separator '\n' s t

theorem splitOn_eq_singleton {separator : Char} {s : List Char} (h : separator ∉ s) :
    splitOn separator s = [s] := by
  induction s with
  | nil => rfl
  | cons c s ih =>
    rw [List.mem_cons, not_or] at h
    rw [splitOn_cons, if_neg (Ne.symm h.1), ih h.2]
    rfl

theorem splitFeeds_eq_singleton {s : List Char} (h : '\n' ∉ s) : splitFeeds s = [s] :=
  splitOn_eq_singleton h

/-- A text without line feeds lengthens the first piece of the text after it. -/
theorem splitFeeds_append {s t l : List Char} {ls : List (List Char)} (hs : '\n' ∉ s)
    (ht : splitFeeds t = l :: ls) : splitFeeds (s ++ t) = (s ++ l) :: ls := by
  induction s with
  | nil => exact ht
  | cons c s ih =>
    rw [List.mem_cons, not_or] at hs
    rw [List.cons_append, splitFeeds_cons, if_neg (Ne.symm hs.1), ih hs.2]
    rfl

theorem splitOn_intercalate {c : Char} {separator : String} (hc : separator.toList = [c])
    {pieces : List String} (h : pieces ≠ []) :
    splitOn c (separator.intercalate pieces).toList =
      pieces.flatMap fun p => splitOn c p.toList := by
  induction pieces with
  | nil => exact absurd rfl h
  | cons p pieces ih =>
    cases pieces with
    | nil => simp
    | cons p' pieces =>
      rw [String.intercalate_cons_cons, String.toList_append, String.toList_append, hc,
        List.append_assoc, List.singleton_append, splitOn_append_separator,
        ih (List.cons_ne_nil p' pieces)]
      rfl

theorem splitFeeds_intercalate {pieces : List String} (h : pieces ≠ []) :
    splitFeeds (String.intercalate "\n" pieces).toList =
      pieces.flatMap fun p => splitFeeds p.toList := splitOn_intercalate rfl h

theorem flatMap_splitFeeds {pieces : List String} (h : ∀ p ∈ pieces, '\n' ∉ p.toList) :
    (pieces.flatMap fun p => splitFeeds p.toList) = pieces.map String.toList := by
  induction pieces with
  | nil => rfl
  | cons p pieces ih =>
    obtain ⟨hp, hpieces⟩ := List.forall_mem_cons.1 h
    rw [List.flatMap_cons, ih hpieces, splitFeeds_eq_singleton hp]
    rfl

theorem splitFeeds_of_stack {s : List Char} {ls : List (List Char)} (hls : Feedless ls)
    (h : stack ls = '\n' :: s) : splitFeeds s = ls := by
  induction ls generalizing s with
  | nil => cases h
  | cons l ls ih =>
    obtain rfl : l ++ stack ls = s := (List.cons.inj h).2
    cases ls with
    | nil => rw [stack_nil, List.append_nil, splitFeeds_eq_singleton hls.head]
    | cons k ls =>
      have hrest : splitFeeds (k ++ stack ls) = k :: ls := ih hls.tail rfl
      rw [stack_cons, splitFeeds_append_feed, splitFeeds_eq_singleton hls.head, hrest]
      rfl

theorem flatten_intersperse_feed (l : List Char) (ls : List (List Char)) :
    ((l :: ls).intersperse ['\n']).flatten = l ++ stack ls := by
  induction ls generalizing l with
  | nil => simp
  | cons k ls ih => simpa using ih k

theorem splitFeeds_flatten_intersperse {ls : List (List Char)} (hls : Feedless ls) (hne : ls ≠ []) :
    splitFeeds (ls.intersperse ['\n']).flatten = ls := by
  obtain ⟨l, ls, rfl⟩ := List.exists_cons_of_ne_nil hne
  exact splitFeeds_of_stack hls (by rw [flatten_intersperse_feed, stack_cons])

theorem mem_intercalate {c : Char} {separator : String} {pieces : List String}
    (h : c ∈ (separator.intercalate pieces).toList) :
    c ∈ separator.toList ∨ ∃ p ∈ pieces, c ∈ p.toList := by
  induction pieces with
  | nil => cases h
  | cons p pieces ih =>
    cases pieces with
    | nil =>
      rw [String.intercalate_singleton] at h
      exact .inr ⟨p, List.mem_cons_self, h⟩
    | cons p' pieces =>
      rw [String.intercalate_cons_cons, String.toList_append, String.toList_append,
        List.mem_append, List.mem_append] at h
      rcases h with (h | h) | h
      · exact .inr ⟨p, List.mem_cons_self, h⟩
      · exact .inl h
      · exact (ih h).imp_right fun ⟨q, hq, hc⟩ => ⟨q, List.mem_cons_of_mem p hq, hc⟩

/-! ## Lines of the character standard -/

theorem lineBreakless_extendFirst {c : Char} {ls : List (List Char)} (hc : isLineBreak c = false)
    (h : ∀ l ∈ ls, ∀ d ∈ l, isLineBreak d = false) :
    ∀ l ∈ extendFirst c ls, ∀ d ∈ l, isLineBreak d = false := by
  cases ls with
  | nil => simp [extendFirst, hc]
  | cons l ls =>
    obtain ⟨hl, hls⟩ := List.forall_mem_cons.1 h
    exact List.forall_mem_cons.2 ⟨List.forall_mem_cons.2 ⟨hc, hl⟩, hls⟩

theorem lineBreakless_splitLines (s : List Char) :
    ∀ l ∈ splitLines s, ∀ c ∈ l, isLineBreak c = false := by
  rw [splitLines]
  induction s with
  | nil => simp
  | cons c s ih =>
    rw [List.foldr_cons, lineStep]
    split
    · exact ih
    · split
      · exact List.forall_mem_cons.2 ⟨by simp, ih⟩
      · rename_i hc
        exact lineBreakless_extendFirst (by simpa using hc) ih

theorem feedless_splitLines (s : List Char) : Feedless (splitLines s) := fun l hl hfeed =>
  absurd (lineBreakless_splitLines s l hl '\n' hfeed) (by decide)

/-! ## Carriage returns -/

theorem foldStep_fst (s : List Char) :
    (s.foldr foldStep (false, [])).1 = decide (s.head? = some '\n') := by
  cases s with
  | nil => rfl
  | cons c s =>
    rw [List.foldr_cons, foldStep]
    split
    · rename_i h
      have hc : c = '\r' := by simpa using And.left (Bool.and_eq_true_iff.1 h)
      rw [hc]
      rfl
    · simp

/-- A carriage return is dropped exactly if a line feed follows it. -/
theorem foldReturns_cons (c : Char) (s : List Char) : foldReturns (c :: s) =
    if c = '\r' ∧ s.head? = some '\n' then foldReturns s else c :: foldReturns s := by
  rw [foldReturns, List.foldr_cons, foldStep, foldStep_fst, ← Bool.decide_and, foldReturns]
  by_cases h : c = '\r' ∧ s.head? = some '\n'
  · rw [if_pos h, if_pos (decide_eq_true h)]
  · rw [if_neg h, if_neg (by simpa using h)]

theorem foldReturns_eq_self {s : List Char} (h : '\r' ∉ s) : foldReturns s = s := by
  induction s with
  | nil => rfl
  | cons c s ih =>
    rw [List.mem_cons, not_or] at h
    rw [foldReturns_cons, if_neg fun e => h.1 e.1.symm, ih h.2]

/-- Texts that a line feed joins are folded one by one, unless it completes a break. -/
theorem foldReturns_append_feed {s : List Char} (t : List Char) (h : s.getLast? ≠ some '\r') :
    foldReturns (s ++ '\n' :: t) = foldReturns s ++ '\n' :: foldReturns t := by
  induction s with
  | nil =>
    rw [List.nil_append, foldReturns_cons, if_neg fun e => absurd e.1 (by decide)]
    rfl
  | cons c s ih =>
    rw [List.cons_append, foldReturns_cons, foldReturns_cons]
    cases s with
    | nil =>
      have hc : c ≠ '\r' := fun e => h (by rw [e]; rfl)
      rw [if_neg fun e => hc e.1, if_neg fun e => hc e.1, ih (by decide)]
      rfl
    | cons d s =>
      rw [List.getLast?_cons_cons] at h
      rw [ih h, List.cons_append, List.head?_cons, List.head?_cons]
      split <;> rfl

/-! ## Trimming -/

theorem trim_cons_of_isBlank {c : Char} (h : isBlank c = true) (s : List Char) :
    trim (c :: s) = trim s := by
  rw [trim, trimStart, List.dropWhile_cons_of_pos h]
  rfl

theorem trimStart_of_stops {s : List Char} (h : Stops isBlank s) : trimStart s = s :=
  dropWhile_append_of_stops (g := []) (by simp) h

theorem trimEnd_append_white (s : List Char) {w : List Char} (h : White w) :
    trimEnd (s ++ w) = trimEnd s := by
  rw [trimEnd, List.reverse_append, List.dropWhile_append_of_pos, trimEnd]
  intro c hc
  exact h c (List.mem_reverse.1 hc)

theorem trimEnd_append_cons {c : Char} (h : isBlank c = false) (s t : List Char) :
    trimEnd (s ++ c :: t) = s ++ c :: trimEnd t := by
  obtain ⟨g, hg, ht⟩ := eq_run_append isBlank t.reverse
  have hcut : (t.reverse ++ c :: s.reverse).dropWhile isBlank =
      t.reverse.dropWhile isBlank ++ c :: s.reverse := by
    rw [List.dropWhile_append]
    split
    · rename_i he
      rw [List.isEmpty_iff.1 he, List.nil_append, List.dropWhile_cons_of_neg (by simp [h])]
    · rfl
  calc trimEnd (s ++ c :: t)
    _ = ((t.reverse ++ c :: s.reverse).dropWhile isBlank).reverse := by simp [trimEnd]
    _ = s ++ c :: trimEnd t := by rw [hcut]; simp [trimEnd]

/-- White space at the end of a text stands behind the last character that is none. -/
theorem trimEnd_append (s : List Char) {t : List Char} (h : ¬White t) :
    trimEnd (s ++ t) = s ++ trimEnd t := by
  simp only [White, not_forall, Bool.not_eq_true] at h
  obtain ⟨c, hc, hblank⟩ := h
  obtain ⟨a, b, rfl⟩ := List.append_of_mem hc
  rw [← List.append_assoc, trimEnd_append_cons hblank, trimEnd_append_cons hblank,
    List.append_assoc]

/-- The white space at the end of the first lines is cut off, which gives the second ones: white
lines fall away, and the last line that is not white is trimmed. -/
def TrimsTo (ls ls' : List (List Char)) : Prop :=
  ∃ a l w, ls = a ++ l :: w ∧ ¬White l ∧ (∀ k ∈ w, White k) ∧ ls' = a ++ [trimEnd l]

theorem TrimsTo.prepend {ls ls' : List (List Char)} (h : TrimsTo ls ls')
    (front : List (List Char)) : TrimsTo (front ++ ls) (front ++ ls') := by
  obtain ⟨a, l, w, rfl, hl, hw, rfl⟩ := h
  exact ⟨front ++ a, l, w, by simp, hl, hw, by simp⟩

theorem white_stack {ls : List (List Char)} (h : ∀ l ∈ ls, White l) : White (stack ls) := by
  intro c hc
  obtain ⟨l, hl, hc⟩ := List.mem_flatMap.1 hc
  rcases List.mem_cons.1 hc with rfl | hc
  · decide
  · exact h l hl c hc

theorem mem_of_mem_trimEnd {c : Char} {s : List Char} (h : c ∈ trimEnd s) : c ∈ s := by
  rw [trimEnd, List.mem_reverse] at h
  exact List.mem_reverse.1 ((List.dropWhile_suffix isBlank).subset h)

theorem splitFeeds_trimEnd {s : List Char} {ls : List (List Char)} (h : TrimsTo (splitFeeds s) ls) :
    splitFeeds (trimEnd s) = ls := by
  obtain ⟨a, l, w, hs, hl, hw, rfl⟩ := h
  have hfeedless : Feedless (a ++ l :: w) := hs ▸ feedless_splitFeeds s
  have hstack : stack a ++ '\n' :: (l ++ stack w) = '\n' :: s := by
    rw [← stack_splitFeeds s, hs, stack_append, stack_cons]
  have hink : ¬White s := by
    intro hwhite
    refine hl fun c hc => ?_
    have hmem : c ∈ '\n' :: s := by rw [← hstack]; simp [hc]
    rcases List.mem_cons.1 hmem with rfl | hmem
    · decide
    · exact hwhite c hmem
  refine splitFeeds_of_stack ?_ ?_
  · intro k hk
    rcases List.mem_append.1 hk with hk | hk
    · exact hfeedless k (List.mem_append_left _ hk)
    · rw [List.mem_singleton.1 hk]
      exact fun hfeed => hfeedless l (by simp) (mem_of_mem_trimEnd hfeed)
  · calc stack (a ++ [trimEnd l])
      _ = (stack a ++ ['\n']) ++ trimEnd (l ++ stack w) := by
        rw [trimEnd_append_white l (white_stack hw)]
        simp
      _ = trimEnd (stack a ++ '\n' :: (l ++ stack w)) := by
        rw [← trimEnd_append _ fun hwhite => hl fun c hc => hwhite c (List.mem_append_left _ hc)]
        simp
      _ = '\n' :: trimEnd s := by rw [hstack]; exact trimEnd_append ['\n'] hink

theorem stops_of_trim_eq_self {s : List Char} (h : trim s = s) :
    Stops isBlank s ∧ Stops isBlank s.reverse := by
  have hstart : trimStart s = s := by
    refine (List.dropWhile_suffix isBlank).eq_of_length_le ?_
    calc s.length
      _ = (trim s).length := by rw [h]
      _ ≤ (trimStart s).length := by
        have hlen := (List.dropWhile_suffix isBlank (l := (trimStart s).reverse)).length_le
        rw [List.length_reverse] at hlen
        rw [trim, trimEnd, List.length_reverse]
        exact hlen
  have hend : s.reverse.dropWhile isBlank = s.reverse := by
    rw [trim, hstart, trimEnd] at h
    rw [← List.reverse_inj, List.reverse_reverse, h]
  refine ⟨?_, ?_⟩
  · rw [← hstart]
    exact stops_dropWhile isBlank s
  · rw [← hend]
    exact stops_dropWhile isBlank s.reverse

end PerfReview.Text
