import PerfReview.Proofs.Text.Cut
import PerfReview.Response.Body

/-!
# The form of issue bodies

`Body.Reads b t` cuts the text `t` below a header line into the fields of `b`: each field stands
after its label, which white space alone separates from the field before, and the code stands in a
closed block. `Body.ofLines?` finds fields in the lines of a text exactly if it can be cut this way,
and what it finds are fields of such a cut.
-/

namespace PerfReview.Response

open Text

/-- The text is white space, a label with its colon, and `rest`. -/
def Labelled (label : String) (t rest : List Char) : Prop :=
  ∃ w, White w ∧ t = w ++ (label.toList ++ [':'] ++ rest)

/-- A line that opens a code block. -/
def Opens (l : List Char) : Prop := ∃ g info, Gaps g ∧ '\n' ∉ info ∧ l = g ++ (Body.fence ++ info)

/-- A line that closes a code block. -/
def Closes (l : List Char) : Prop := ∃ g g', Gaps g ∧ Gaps g' ∧ l = g ++ (Body.fence ++ g')

/-- The second text starts with a closed code block that holds the first one; the third text
follows. -/
inductive Block : List Char → List Char → List Char → Prop where
  | code {o c code rest : List Char} : Opens o → Closes c →
      Block code (o ++ '\n' :: (code ++ '\n' :: (c ++ '\n' :: rest))) rest
  | empty {o c rest : List Char} : Opens o → Closes c →
      Block [] (o ++ '\n' :: (c ++ '\n' :: rest)) rest

/-- The text starts with the fields of an issue body. -/
def Body.Reads (b : Body) (t : List Char) : Prop :=
  ∃ t₁ t₂ gap t₃ t₄ t₅ rest,
    Labelled "Description" t (b.description ++ '\n' :: t₁) ∧
    Labelled "Impact" t₁ (b.impact ++ '\n' :: t₂) ∧
    Labelled "Code Context" t₂ (gap ++ '\n' :: t₃) ∧ Gaps gap ∧
    Block b.code t₃ t₄ ∧
    Labelled "Solution" t₄ (b.solution ++ '\n' :: t₅) ∧
    Labelled "Expected Improvement" t₅ (b.expected ++ rest) ∧ '\n' ∉ b.expected

/-! ## Labels -/

/-- A label is one line and begins with no white space. -/
def IsLabel (label : String) : Prop :=
  '\n' ∉ label.toList ∧ ∃ c s, label.toList = c :: s ∧ isBlank c = false

section
variable {label : String} {l rest t : List Char} {ls after : List Line}

theorem IsLabel.stops (h : IsLabel label) (s : List Char) :
    Stops isBlank (label.toList ++ [':'] ++ s) := by
  obtain ⟨-, c, s', e, hc⟩ := h
  rw [e]
  exact stops_cons hc

theorem afterLabel?_eq_some_iff (h : IsLabel label) :
    Body.afterLabel? label l = some rest ↔ Labelled label l rest := by
  rw [Body.afterLabel?, dropHead?_eq_some_iff]
  constructor
  · intro e
    obtain ⟨w, hw, el⟩ := eq_run_append isBlank l
    exact ⟨w, hw, by rw [el]; exact congrArg (w ++ ·) e⟩
  · rintro ⟨w, hw, rfl⟩
    exact dropWhile_append_of_stops hw (h.stops rest)

theorem Labelled.not_isBlankLine (h : IsLabel label) (hl : Labelled label l rest) :
    Body.isBlankLine l = false := by
  obtain ⟨-, c, s, e, hc⟩ := h
  obtain ⟨w, -, rfl⟩ := hl
  simp [Body.isBlankLine, e, hc]

theorem Labelled.feedless (h : Labelled label l rest) (hl : '\n' ∉ l) : '\n' ∉ rest := by
  obtain ⟨w, -, rfl⟩ := h
  exact fun hm => hl (List.mem_append_right _ (List.mem_append_right _ hm))

theorem labelled_feed_iff (h : IsLabel label) :
    Labelled label ('\n' :: t) rest ↔ Labelled label t rest := by
  obtain ⟨-, c, s, e, hc⟩ := h
  constructor
  · rintro ⟨w, hw, e'⟩
    cases w with
    | nil =>
      rw [e] at e'
      cases e'
      exact absurd hc (by decide)
    | cons d w =>
      cases e'
      exact ⟨w, (List.forall_mem_cons.1 hw).2, rfl⟩
  · rintro ⟨w, hw, rfl⟩
    exact ⟨'\n' :: w, List.forall_mem_cons.2 ⟨by decide, hw⟩, rfl⟩

/-- A label after white space in the text of lines stands on the first line that is not blank. -/
theorem exists_label_line (h : IsLabel label) (hl : Labelled label (stack ls) t) :
    ∃ blanks l rest after, ls = blanks ++ l :: after ∧ (∀ k ∈ blanks, Body.isBlankLine k = true) ∧
      Labelled label l rest ∧ t = rest ++ stack after := by
  obtain ⟨w, hw, e⟩ := hl
  induction ls generalizing w with
  | nil =>
    obtain ⟨-, c, s, e', -⟩ := h
    simp [e'] at e
  | cons l ls ih =>
    cases w with
    | nil =>
      have := h.stops t '\n' (by rw [List.nil_append] at e; rw [← e]; rfl)
      exact absurd this (by decide)
    | cons d w =>
      obtain ⟨-, hw⟩ := List.forall_mem_cons.1 hw
      obtain ⟨-, e⟩ := List.cons.inj e
      rcases List.append_eq_append_iff.1 e with ⟨u, rfl, hu⟩ | ⟨u, rfl, hu⟩
      · -- the line is blank
        obtain ⟨hwl, hwu⟩ := List.forall_mem_append.1 hw
        obtain ⟨blanks, k, rest, after, rfl, hb, hk, ht⟩ := ih u hwu hu
        refine ⟨l :: blanks, k, rest, after, rfl, ?_, hk, ht⟩
        exact List.forall_mem_cons.2 ⟨List.all_eq_true.2 hwl, hb⟩
      · have hcolon : '\n' ∉ label.toList ++ [':'] := by simp [h.1]
        obtain ⟨v, rfl, rfl⟩ := cut_after hcolon hu.symm
        exact ⟨[], _, v, ls, rfl, by simp, ⟨w, hw, by simp⟩, rfl⟩

theorem atLabel?_eq_some_iff (h : IsLabel label) :
    Body.atLabel? label ls = some (rest, after) ↔ ∃ blanks l, ls = blanks ++ l :: after ∧
      (∀ k ∈ blanks, Body.isBlankLine k = true) ∧ Labelled label l rest := by
  unfold Body.atLabel?
  constructor
  · intro e
    split at e
    · cases e
    · rename_i l after' hd
      obtain ⟨r, hr, e⟩ := Option.map_eq_some_iff.1 e
      cases e
      refine ⟨ls.takeWhile Body.isBlankLine, l, ?_, ?_, (afterLabel?_eq_some_iff h).1 hr⟩
      · rw [← hd, List.takeWhile_append_dropWhile]
      · exact fun k hk => List.all_eq_true.1 List.all_takeWhile k hk
  · rintro ⟨blanks, l, rfl, hb, hl⟩
    rw [List.dropWhile_append_of_pos hb,
      List.dropWhile_cons_of_neg (by simp [hl.not_isBlankLine h])]
    simp only [(afterLabel?_eq_some_iff h).2 hl, Option.map_some]

theorem atLabel?_of_labelled (h : IsLabel label) (hls : Feedless ls)
    (hl : Labelled label (stack ls) t) :
    ∃ rest after, Body.atLabel? label ls = some (rest, after) ∧ after <:+ ls ∧ '\n' ∉ rest ∧
      t = rest ++ stack after := by
  obtain ⟨blanks, k, rest, after, rfl, hb, hk, rfl⟩ := exists_label_line h hl
  refine ⟨rest, after, (atLabel?_eq_some_iff h).2 ⟨blanks, k, rfl, hb, hk⟩, ?_,
    hk.feedless (hls k (by simp)), rfl⟩
  exact ⟨blanks ++ [k], by simp⟩

theorem white_stack {ls : List Line} (h : ∀ k ∈ ls, Body.isBlankLine k = true) :
    White (stack ls) := by
  induction ls with
  | nil => exact fun _ hc => by cases hc
  | cons l ls ih =>
    obtain ⟨hl, hls⟩ := List.forall_mem_cons.1 h
    exact List.forall_mem_cons.2
      ⟨by decide, List.forall_mem_append.2 ⟨List.all_eq_true.1 hl, ih hls⟩⟩

theorem labelled_of_atLabel? (h : IsLabel label)
    (e : Body.atLabel? label ls = some (rest, after)) :
    Labelled label (stack ls) (rest ++ stack after) := by
  obtain ⟨blanks, l, rfl, hb, w, hw, rfl⟩ := (atLabel?_eq_some_iff h).1 e
  refine ⟨stack blanks ++ '\n' :: w, ?_, by simp⟩
  exact List.forall_mem_append.2 ⟨white_stack hb, List.forall_mem_cons.2 ⟨by decide, hw⟩⟩

end

theorem isLabel_description : IsLabel "Description" := ⟨by decide, 'D', _, rfl, by decide⟩

theorem isLabel_impact : IsLabel "Impact" := ⟨by decide, 'I', _, rfl, by decide⟩

theorem isLabel_code : IsLabel "Code Context" := ⟨by decide, 'C', _, rfl, by decide⟩

theorem isLabel_solution : IsLabel "Solution" := ⟨by decide, 'S', _, rfl, by decide⟩

theorem isLabel_expected : IsLabel "Expected Improvement" := ⟨by decide, 'E', _, rfl, by decide⟩

/-! ## Fences -/

theorem stops_fence (s : List Char) : Stops isGap (Body.fence ++ s) := stops_cons (by decide)

theorem afterFence?_eq_some_iff {l rest : List Char} :
    Body.afterFence? l = some rest ↔ ∃ g, Gaps g ∧ l = g ++ (Body.fence ++ rest) := by
  rw [Body.afterFence?, dropHead?_eq_some_iff]
  constructor
  · intro e
    obtain ⟨g, hg, el⟩ := eq_run_append isGap l
    exact ⟨g, hg, by rw [el]; exact congrArg (g ++ ·) e⟩
  · rintro ⟨g, hg, rfl⟩
    exact dropWhile_append_of_stops hg (stops_fence rest)

theorem isClosing_iff {l : List Char} : Body.isClosing l = true ↔ Closes l := by
  unfold Body.isClosing Closes
  constructor
  · intro h
    split at h
    · rename_i rest e
      obtain ⟨g, hg, rfl⟩ := afterFence?_eq_some_iff.1 e
      exact ⟨g, rest, hg, List.all_eq_true.1 h, rfl⟩
    · cases h
  · rintro ⟨g, g', hg, hg', rfl⟩
    rw [afterFence?_eq_some_iff.2 ⟨g, hg, rfl⟩]
    exact List.all_eq_true.2 hg'

theorem isSome_afterFence?_iff {l : List Char} (hl : '\n' ∉ l) :
    (Body.afterFence? l).isSome = true ↔ Opens l := by
  rw [Option.isSome_iff_exists]
  constructor
  · rintro ⟨info, e⟩
    obtain ⟨g, hg, rfl⟩ := afterFence?_eq_some_iff.1 e
    exact ⟨g, info, hg, fun h => hl (by simp [h]), rfl⟩
  · rintro ⟨g, info, hg, -, rfl⟩
    exact ⟨info, afterFence?_eq_some_iff.2 ⟨g, hg, rfl⟩⟩

theorem gaps_feedless {g : List Char} (h : Gaps g) : '\n' ∉ g :=
  fun hm => absurd (h _ hm) (by decide)

theorem Opens.feedless {l : List Char} (h : Opens l) : '\n' ∉ l := by
  obtain ⟨g, info, hg, hi, rfl⟩ := h
  simp [gaps_feedless hg, hi, Body.fence]

theorem Closes.feedless {l : List Char} (h : Closes l) : '\n' ∉ l := by
  obtain ⟨g, g', hg, hg', rfl⟩ := h
  simp [gaps_feedless hg, gaps_feedless hg', Body.fence]

/-! ## What is found can be cut out -/

section
variable {ls after : List Line}

theorem joinLines_cons (l : Line) (ls : List Line) : Body.joinLines (l :: ls) = l ++ stack ls :=
  flatten_intersperse_feed l ls

theorem joinLines_splitFeeds (s : List Char) : Body.joinLines (splitFeeds s) = s := by
  obtain ⟨l, ls, e⟩ := List.exists_cons_of_ne_nil (splitOn_ne_nil '\n' s)
  have hstack := stack_splitFeeds s
  have hjoin := joinLines_cons l ls
  rw [splitFeeds, e] at hstack ⊢
  rw [hjoin]
  exact (List.cons.inj hstack).2

theorem eq_of_upToLabel? {label : String} {before : List Line} {rest : Line}
    (e : Body.upToLabel? label ls = some (before, rest, after)) :
    ∃ l, ls = before ++ l :: after ∧ Body.afterLabel? label l = some rest := by
  induction ls generalizing before with
  | nil => cases e
  | cons l ls ih =>
    rw [Body.upToLabel?] at e
    split at e
    · rename_i r hr
      cases e
      exact ⟨l, rfl, hr⟩
    · obtain ⟨⟨b, r, a⟩, hb, e⟩ := Option.map_eq_some_iff.1 e
      cases e
      obtain ⟨k, rfl, hk⟩ := ih hb
      exact ⟨k, rfl, hk⟩

theorem labelled_of_afterLabel? {label : String} {l rest : Line} (h : IsLabel label)
    (e : Body.afterLabel? label l = some rest) (s : List Char) :
    Labelled label (l ++ s) (rest ++ s) := by
  obtain ⟨w, hw, rfl⟩ := (afterLabel?_eq_some_iff h).1 e
  exact ⟨w, hw, by simp⟩

theorem ending?_eq_some_iff {solution expected : List Char} :
    Body.ending? ls = some (solution, expected) ↔ ∃ first ls₁ more ls₂,
      Body.atLabel? "Solution" ls = some (first, ls₁) ∧
      Body.upToLabel? "Expected Improvement" ls₁ = some (more, expected, ls₂) ∧
      Body.joinLines (first :: more) = solution := by
  simp only [Body.ending?, Option.bind_eq_bind, Option.bind_eq_some_iff, Option.pure_def,
    Option.some_inj, Prod.mk.injEq, Prod.exists]
  constructor
  · rintro ⟨first, ls₁, hsol, more, expected, ls₂, hexp, rfl, rfl⟩
    exact ⟨first, ls₁, more, ls₂, hsol, hexp, rfl⟩
  · rintro ⟨first, ls₁, more, ls₂, hsol, hexp, rfl⟩
    exact ⟨first, ls₁, hsol, more, expected, ls₂, hexp, rfl, rfl⟩

theorem reads_ending {sol exp : List Char} (hls : Feedless ls)
    (e : Body.ending? ls = some (sol, exp)) :
    ∃ t₄ t₅ rest, stack ls = '\n' :: t₄ ∧ Labelled "Solution" t₄ (sol ++ '\n' :: t₅) ∧
      Labelled "Expected Improvement" t₅ (exp ++ rest) ∧ '\n' ∉ exp := by
  obtain ⟨first, ls', more, ls'', hsol, hexp, rfl⟩ := ending?_eq_some_iff.1 e
  obtain ⟨l, rfl, hl⟩ := eq_of_upToLabel? hexp
  have hlab := labelled_of_atLabel? isLabel_solution hsol
  cases ls with
  | nil => cases hsol
  | cons k ls =>
    refine ⟨k ++ stack ls, l ++ stack ls'', stack ls'', rfl, ?_,
      labelled_of_afterLabel? isLabel_expected hl _, ?_⟩
    · rw [stack_cons, labelled_feed_iff isLabel_solution] at hlab
      rw [joinLines_cons]
      simpa using hlab
    · obtain ⟨blanks, s, hk, -⟩ := (atLabel?_eq_some_iff isLabel_solution).1 hsol
      have hl' : l ∈ k :: ls := by rw [hk]; simp
      exact ((afterLabel?_eq_some_iff isLabel_expected).1 hl).feedless (hls l hl')

theorem eq_of_upToClosing? {code : List Line} {fields : List Char × List Char}
    (e : Body.upToClosing? ls = some (code, fields)) :
    ∃ c after, ls = code ++ c :: after ∧ Closes c ∧ Body.ending? after = some fields := by
  induction ls generalizing code with
  | nil => cases e
  | cons l ls ih =>
    rw [Body.upToClosing?] at e
    split at e
    · rename_i sol exp hend
      cases e
      split at hend
      · rename_i hc
        exact ⟨l, ls, rfl, isClosing_iff.1 hc, hend⟩
      · cases hend
    · obtain ⟨⟨code', f⟩, hb, e⟩ := Option.map_eq_some_iff.1 e
      cases e
      obtain ⟨c, after, rfl, hc, hf⟩ := ih hb
      exact ⟨c, after, rfl, hc, hf⟩

theorem reads_block {code sol exp : List Char} (hls : Feedless ls)
    (e : Body.block? ls = some (code, sol, exp)) :
    ∃ t₃ t₄ t₅ rest, stack ls = '\n' :: t₃ ∧ Block code t₃ t₄ ∧
      Labelled "Solution" t₄ (sol ++ '\n' :: t₅) ∧
      Labelled "Expected Improvement" t₅ (exp ++ rest) ∧ '\n' ∉ exp := by
  cases ls with
  | nil => cases e
  | cons o ls =>
    rw [Body.block?] at e
    split at e
    · rename_i ho
      have ho := (isSome_afterFence?_iff hls.head).1 ho
      cases ls with
      | nil => cases e
      | cons l ls =>
        rw [Body.fenced?] at e
        split at e
        · rename_i code' fields hcode
          cases e
          obtain ⟨c, after, rfl, hc, hend⟩ := eq_of_upToClosing? hcode
          have hafter : Feedless after := hls.of_suffix ⟨o :: l :: (code' ++ [c]), by simp⟩
          obtain ⟨t₄, t₅, rest, ht, hsol, hexp, hn⟩ := reads_ending hafter hend
          refine ⟨o ++ stack (l :: (code' ++ c :: after)), t₄, t₅, rest, rfl, ?_, hsol, hexp, hn⟩
          have hblock : Block (Body.joinLines (l :: code'))
              (o ++ '\n' :: (Body.joinLines (l :: code') ++ '\n' :: (c ++ '\n' :: t₄))) t₄ :=
            .code ho hc
          simpa [joinLines_cons, ht] using hblock
        · split at e
          · rename_i hc
            obtain ⟨fields, hend, e⟩ := Option.map_eq_some_iff.1 e
            cases e
            have hafter : Feedless ls := hls.tail.tail
            obtain ⟨t₄, t₅, rest, ht, hsol, hexp, hn⟩ := reads_ending hafter hend
            refine ⟨o ++ stack (l :: ls), t₄, t₅, rest, rfl, ?_, hsol, hexp, hn⟩
            have hblock : Block [] (o ++ '\n' :: (l ++ '\n' :: t₄)) t₄ :=
              .empty ho (isClosing_iff.1 hc)
            simpa [ht] using hblock
          · cases e
    · cases e

theorem eq_of_upToCode? {before : List Line} {fields : List Char × List Char × List Char}
    (e : Body.upToCode? ls = some (before, fields)) :
    ∃ l after, ls = before ++ l :: after ∧ Body.isCodeLabel l = true ∧
      Body.block? after = some fields := by
  induction ls generalizing before with
  | nil => cases e
  | cons l ls ih =>
    rw [Body.upToCode?] at e
    split at e
    · rename_i f hf
      cases e
      split at hf
      · rename_i hl
        exact ⟨l, ls, rfl, hl, hf⟩
      · cases hf
    · obtain ⟨⟨b, f⟩, hb, e⟩ := Option.map_eq_some_iff.1 e
      cases e
      obtain ⟨k, after, rfl, hk, hf⟩ := ih hb
      exact ⟨k, after, rfl, hk, hf⟩

theorem isCodeLabel_iff {l : Line} :
    Body.isCodeLabel l = true ↔ ∃ gap, Gaps gap ∧ Labelled "Code Context" l gap := by
  unfold Body.isCodeLabel
  constructor
  · intro h
    split at h
    · rename_i rest e
      exact ⟨rest, List.all_eq_true.1 h, (afterLabel?_eq_some_iff isLabel_code).1 e⟩
    · cases h
  · rintro ⟨gap, hg, hl⟩
    rw [(afterLabel?_eq_some_iff isLabel_code).2 hl]
    exact List.all_eq_true.2 hg

/-- The fields that are found below a header line are fields of a cut of its text. -/
theorem Body.reads_of_ofLines? {b : Body} (hls : Feedless ls) (e : Body.ofLines? ls = some b) :
    b.Reads (stack ls) := by
  simp only [Body.ofLines?, Option.bind_eq_bind, Option.bind_eq_some_iff] at e
  obtain ⟨⟨first, ls₁⟩, hd, ⟨desc, impact, ls₂⟩, hi, ⟨more, code, sol, exp⟩, hc, e⟩ := e
  cases e
  obtain ⟨blanks, k, rfl, -, -⟩ := (atLabel?_eq_some_iff isLabel_description).1 hd
  obtain ⟨l, rfl, hl⟩ := eq_of_upToLabel? hi
  obtain ⟨l', ls₃, rfl, hl', hblock⟩ := eq_of_upToCode? hc
  obtain ⟨gap, hgap, hcode⟩ := isCodeLabel_iff.1 hl'
  have hls₃ : Feedless ls₃ := hls.of_suffix
    ⟨blanks ++ k :: (desc ++ l :: (more ++ [l'])), by simp⟩
  obtain ⟨t₃, t₄, t₅, rest, ht, hb, hsol, hexp, hn⟩ := reads_block hls₃ hblock
  refine ⟨l ++ stack (more ++ l' :: ls₃), l' ++ stack ls₃, gap, t₃, t₄, t₅, rest,
    ?_, ?_, ?_, hgap, hb, hsol, hexp, hn⟩
  · simpa [joinLines_cons] using labelled_of_atLabel? isLabel_description hd
  · simpa [joinLines_cons] using
      labelled_of_afterLabel? isLabel_impact hl (stack (more ++ l' :: ls₃))
  · obtain ⟨w, hw, rfl⟩ := hcode
    exact ⟨w, hw, by simp [ht]⟩

/-! ## What can be cut out is found -/

/-- The first line with a label is not below any other line with it. -/
theorem upToLabel?_append {label : String} {l rest : Line} (a after : List Line)
    (h : Body.afterLabel? label l = some rest) :
    ∃ before r after', Body.upToLabel? label (a ++ l :: after) = some (before, r, after') ∧
      after <:+ after' := by
  induction a with
  | nil => exact ⟨[], rest, after, by rw [List.nil_append, Body.upToLabel?, h], List.suffix_rfl⟩
  | cons k a ih =>
    rw [List.cons_append, Body.upToLabel?]
    split
    · rename_i r hr
      exact ⟨[], r, _, rfl, ⟨a ++ [l], by simp⟩⟩
    · obtain ⟨before, r, after', e, hs⟩ := ih
      exact ⟨k :: before, r, after', by rw [e]; rfl, hs⟩

/-- The label that ends a field stands on a line below the one with the start of the field. -/
theorem exists_next_label {label : String} {start field t s : List Char} (h : IsLabel label)
    (hstart : '\n' ∉ start) (hls : Feedless ls) (e : start ++ stack ls = field ++ '\n' :: t)
    (hl : Labelled label t s) :
    ∃ a l r after, ls = a ++ l :: after ∧ Labelled label l r ∧ '\n' ∉ r ∧ Feedless after ∧
      s = r ++ stack after := by
  obtain ⟨a, b, rfl, -, hb⟩ := cut_at_feed hstart hls e
  rw [← labelled_feed_iff h, ← hb] at hl
  obtain ⟨blanks, l, r, after, rfl, -, hr, rfl⟩ := exists_label_line h hl
  refine ⟨a ++ blanks, l, r, after, by simp, hr, hr.feedless (hls l (by simp)), ?_, rfl⟩
  exact hls.of_suffix ⟨a ++ (blanks ++ [l]), by simp⟩

theorem isSome_ending? {sol t₅ s : List Char} (hls : Feedless ls)
    (hsol : Labelled "Solution" (stack ls) (sol ++ '\n' :: t₅))
    (hexp : Labelled "Expected Improvement" t₅ s) : (Body.ending? ls).isSome = true := by
  obtain ⟨first, after, e, hs, hf, ht⟩ := atLabel?_of_labelled isLabel_solution hls hsol
  obtain ⟨a, l, r, after', rfl, hl, -⟩ :=
    exists_next_label isLabel_expected hf (hls.of_suffix hs) ht.symm hexp
  obtain ⟨before, r', after'', e', -⟩ :=
    upToLabel?_append a after' ((afterLabel?_eq_some_iff isLabel_expected).2 hl)
  simp only [Body.ending?, e, e', Option.bind_eq_bind, Option.bind_some]
  rfl

theorem isSome_upToClosing? {a : List Line} {c : Line} (hc : Closes c)
    (h : (Body.ending? after).isSome = true) :
    (Body.upToClosing? (a ++ c :: after)).isSome = true := by
  induction a with
  | nil =>
    obtain ⟨⟨sol, exp⟩, e⟩ := Option.isSome_iff_exists.1 h
    rw [List.nil_append, Body.upToClosing?, if_pos (isClosing_iff.2 hc), e]
    rfl
  | cons k a ih =>
    rw [List.cons_append, Body.upToClosing?]
    split
    · rfl
    · rw [Option.isSome_map, ih]

theorem isSome_fenced? {a : List Line} {c : Line} (hc : Closes c)
    (h : (Body.ending? after).isSome = true) : (Body.fenced? (a ++ c :: after)).isSome = true := by
  cases a with
  | nil =>
    rw [List.nil_append, Body.fenced?]
    split
    · rfl
    · rw [if_pos (isClosing_iff.2 hc), Option.isSome_map, h]
  | cons l a =>
    obtain ⟨⟨code, fields⟩, e⟩ := Option.isSome_iff_exists.1 (isSome_upToClosing? (a := a) hc h)
    rw [List.cons_append, Body.fenced?, e]
    rfl

theorem Block.exists_lines {code t₃ t₄ : List Char} (h : Block code t₃ t₄) (hls : Feedless ls)
    (e : stack ls = '\n' :: t₃) :
    ∃ o a c after, ls = o :: (a ++ c :: after) ∧ Opens o ∧ Closes c ∧ stack after = '\n' :: t₄ := by
  cases h with
  | @code o c code rest ho hc =>
    obtain ⟨ls', rfl, e'⟩ := cut_line ho.feedless hls e
    have e'' : [] ++ stack ls' = ('\n' :: code) ++ '\n' :: (c ++ '\n' :: t₄) := e'
    obtain ⟨a, b, rfl, -, hb⟩ := cut_at_feed (by simp) hls.tail e''
    obtain ⟨after, rfl, hafter⟩ := cut_line hc.feedless (hls.tail.of_suffix ⟨a, rfl⟩) hb
    exact ⟨o, a, c, after, rfl, ho, hc, hafter⟩
  | @empty o c rest ho hc =>
    obtain ⟨ls', rfl, e'⟩ := cut_line ho.feedless hls e
    obtain ⟨after, rfl, hafter⟩ := cut_line hc.feedless hls.tail e'
    exact ⟨o, [], c, after, rfl, ho, hc, hafter⟩

theorem isSome_block? {code t₃ t₄ t₅ sol s : List Char} (hls : Feedless ls)
    (e : stack ls = '\n' :: t₃) (hb : Block code t₃ t₄)
    (hsol : Labelled "Solution" t₄ (sol ++ '\n' :: t₅))
    (hexp : Labelled "Expected Improvement" t₅ s) : (Body.block? ls).isSome = true := by
  obtain ⟨o, a, c, after, rfl, ho, hc, hafter⟩ := hb.exists_lines hls e
  have hend : (Body.ending? after).isSome = true := by
    rw [← labelled_feed_iff isLabel_solution, ← hafter] at hsol
    exact isSome_ending? (hls.of_suffix ⟨o :: (a ++ [c]), by simp⟩) hsol hexp
  rw [Body.block?, if_pos ((isSome_afterFence?_iff ho.feedless).2 ho)]
  exact isSome_fenced? hc hend

theorem isSome_upToCode? {a : List Line} {l : Line} (hl : Body.isCodeLabel l = true)
    (h : (Body.block? after).isSome = true) :
    (Body.upToCode? (a ++ l :: after)).isSome = true := by
  induction a with
  | nil =>
    obtain ⟨fields, e⟩ := Option.isSome_iff_exists.1 h
    rw [List.nil_append, Body.upToCode?, if_pos hl, e]
    rfl
  | cons k a ih =>
    rw [List.cons_append, Body.upToCode?]
    split
    · rfl
    · rw [Option.isSome_map, ih]

/-- The fields of a text that can be cut are found, though maybe others than those of the cut. -/
theorem Body.isSome_ofLines? {b : Body} (hls : Feedless ls) (h : b.Reads (stack ls)) :
    (Body.ofLines? ls).isSome = true := by
  obtain ⟨t₁, t₂, gap, t₃, t₄, t₅, rest, hd, hi, hcode, hgap, hb, hsol, hexp, -⟩ := h
  obtain ⟨first, ls₁, ed, hs₁, hf, e₁⟩ := atLabel?_of_labelled isLabel_description hls hd
  obtain ⟨a, l, r, ls₂, rfl, hl, hr, hls₂, e₂⟩ :=
    exists_next_label isLabel_impact hf (hls.of_suffix hs₁) e₁.symm hi
  obtain ⟨a', l', r', ls₃, rfl, hl', hr', hls₃, e₃⟩ :=
    exists_next_label isLabel_code hr hls₂ e₂.symm hcode
  obtain ⟨rfl, e₄⟩ := cut_at_first_feed hr' (gaps_feedless hgap) hls₃ e₃.symm
  have hblock := isSome_block? hls₃ e₄ hb hsol hexp
  -- the code label is still below the first line with the label of the impact
  obtain ⟨before, r'', ls₂', ei, pre, rfl⟩ :=
    upToLabel?_append a (a' ++ l' :: ls₃) ((afterLabel?_eq_some_iff isLabel_impact).2 hl)
  have hcode := isSome_upToCode? (a := pre ++ a') (isCodeLabel_iff.2 ⟨gap, hgap, hl'⟩) hblock
  obtain ⟨⟨more, fields⟩, ec⟩ := Option.isSome_iff_exists.1 hcode
  rw [List.append_assoc] at ec
  simp only [Body.ofLines?, ed, ei, ec, Option.bind_eq_bind, Option.bind_some]
  rfl

/-- The lines below a header line hold the fields of an issue exactly if their text can be cut. -/
theorem Body.ofLines?_eq_none_iff (hls : Feedless ls) :
    Body.ofLines? ls = none ↔ ¬ ∃ b : Body, b.Reads (stack ls) := by
  constructor
  · rintro e ⟨b, hb⟩
    have := Body.isSome_ofLines? hls hb
    rw [e] at this
    cases this
  · intro h
    cases e : Body.ofLines? ls with
    | none => rfl
    | some b => exact absurd ⟨b, Body.reads_of_ofLines? hls e⟩ h

end

end PerfReview.Response
