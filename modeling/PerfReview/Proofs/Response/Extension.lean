import PerfReview.Proofs.Response.BodyForm

/-!
# Issue bodies with further lines

The fields in the lines below a header line stay what they are when further lines follow, with one
exception. A code block that closes at once is read as such only if no later fence can close it. If
none can but one of the further lines can, these lines reopen the block, and its code then begins
with the fence that closed it before.
-/

namespace PerfReview.Response

open Text

/-- The text begins with a solution that an expected improvement ends. -/
def Ended (t : List Char) : Prop :=
  ∃ solution t₅ rest, Labelled "Solution" t (solution ++ '\n' :: t₅) ∧
    Labelled "Expected Improvement" t₅ rest

/-- One of the lines can close a code block that is open. -/
def Closable (ls : List Line) : Prop :=
  ∃ before c after, ls = before ++ c :: after ∧ Closes c ∧ Ended (stack after)

/-- The lines below the opening fence of the code block. -/
def Body.belowFence? (ls : List Line) : Option (List Line) := do
  let (_, ls) ← atLabel? "Description" ls
  let (_, _, ls) ← upToLabel? "Impact" ls
  let (before, _) ← upToCode? ls
  return ls.drop (before.length + 2)

/-- The code block closes at once and none of its lines can close it later, but one of the further
lines can. -/
def Reopened (ls further : List Line) : Prop :=
  ∃ c below, Body.belowFence? ls = some (c :: below) ∧ Closes c ∧ ¬ Closable below ∧
    Closable (below ++ further)

/-! ## Labels -/

section
variable {label : String} {ls after before : List Line} {rest c : Line}

theorem atLabel?_further (h : IsLabel label) (e : Body.atLabel? label ls = some (rest, after))
    (further : List Line) :
    Body.atLabel? label (ls ++ further) = some (rest, after ++ further) := by
  rw [atLabel?_eq_some_iff h] at e ⊢
  obtain ⟨blanks, l, rfl, hb, hl⟩ := e
  exact ⟨blanks, l, by simp, hb, hl⟩

theorem upToLabel?_further (e : Body.upToLabel? label ls = some (before, rest, after))
    (further : List Line) :
    Body.upToLabel? label (ls ++ further) = some (before, rest, after ++ further) := by
  induction ls generalizing before with
  | nil => cases e
  | cons l ls ih =>
    rw [Body.upToLabel?] at e
    rw [List.cons_append, Body.upToLabel?]
    cases hl : Body.afterLabel? label l with
    | some r =>
      rw [hl] at e
      cases e
      rfl
    | none =>
      rw [hl] at e
      obtain ⟨⟨b, r, a⟩, hb, e⟩ := Option.map_eq_some_iff.1 e
      cases e
      simp only [ih hb, Option.map_some]

theorem ending?_further {fields : List Char × List Char} (e : Body.ending? ls = some fields)
    (further : List Line) : Body.ending? (ls ++ further) = some fields := by
  obtain ⟨solution, expected⟩ := fields
  obtain ⟨first, ls₁, more, ls₂, hsol, hexp, hjoin⟩ := ending?_eq_some_iff.1 e
  exact ending?_eq_some_iff.2 ⟨first, _, more, _, atLabel?_further isLabel_solution hsol further,
    upToLabel?_further hexp further, hjoin⟩

theorem exists_expected_line (h : (Body.ending? ls).isSome = true) :
    ∃ a l after rest, ls = a ++ l :: after ∧
      Body.afterLabel? "Expected Improvement" l = some rest := by
  obtain ⟨⟨solution, expected⟩, e⟩ := Option.isSome_iff_exists.1 h
  obtain ⟨first, ls₁, more, ls₂, hsol, hexp, -⟩ := ending?_eq_some_iff.1 e
  obtain ⟨blanks, k, rfl, -, -⟩ := (atLabel?_eq_some_iff isLabel_solution).1 hsol
  obtain ⟨l, rfl, hl⟩ := eq_of_upToLabel? hexp
  exact ⟨blanks ++ k :: more, l, ls₂, expected, by simp, hl⟩

theorem Closes.not_isBlankLine (h : Closes c) : Body.isBlankLine c = false := by
  obtain ⟨g, g', -, -, rfl⟩ := h
  have htick : isBlank '\x60' = false := by decide
  simp [Body.isBlankLine, Body.fence, htick]

/-- The first line that is not blank is not below a given one that is not. -/
theorem exists_first_ink (hc : Body.isBlankLine c = false) (a after : List Line) :
    ∃ l rest, after <:+ rest ∧ ∀ further,
      (a ++ c :: after ++ further).dropWhile Body.isBlankLine = l :: (rest ++ further) := by
  induction a with
  | nil => exact ⟨c, after, List.suffix_rfl, fun further => by simp [hc]⟩
  | cons k a ih =>
    cases hk : Body.isBlankLine k with
    | true =>
      obtain ⟨l, rest, hs, h⟩ := ih
      exact ⟨l, rest, hs, fun further => by simpa [hk] using h further⟩
    | false => exact ⟨k, a ++ c :: after, ⟨a ++ [c], by simp⟩, fun further => by simp [hk]⟩

/-- Lines that hold a closing fence with an ending have all they need to decide whether they begin
with an ending themselves. -/
theorem ending?_further_of_closes (hc : Closes c) (h : (Body.ending? after).isSome = true)
    (a further : List Line) :
    Body.ending? (a ++ c :: after ++ further) = Body.ending? (a ++ c :: after) := by
  obtain ⟨l, rest, ⟨pre, rfl⟩, hdrop⟩ := exists_first_ink hc.not_isBlankLine a after
  have hdrop' := hdrop []
  rw [List.append_nil, List.append_nil] at hdrop'
  simp only [Body.ending?, Body.atLabel?, hdrop, hdrop']
  cases Body.afterLabel? "Solution" l with
  | none => rfl
  | some first =>
    obtain ⟨x, k, after', r, rfl, hk⟩ := exists_expected_line h
    obtain ⟨before, r', after'', e, -⟩ := upToLabel?_append (pre ++ x) after' hk
    rw [List.append_assoc] at e
    simp only [Option.map_some, Option.bind_eq_bind, Option.bind_some, e,
      upToLabel?_further e further]

end

/-! ## Fences -/

section
variable {ls : List Line}

theorem closable_iff (hls : Feedless ls) :
    Closable ls ↔ (Body.upToClosing? ls).isSome = true := by
  constructor
  · rintro ⟨before, c, after, rfl, hc, solution, t₅, rest, hsol, hexp⟩
    have hafter : Feedless after := hls.of_suffix ⟨before ++ [c], by simp⟩
    exact isSome_upToClosing? hc (isSome_ending? hafter hsol hexp)
  · intro h
    obtain ⟨⟨code, solution, expected⟩, e⟩ := Option.isSome_iff_exists.1 h
    obtain ⟨c, after, rfl, hc, hend⟩ := eq_of_upToClosing? e
    obtain ⟨t₄, t₅, rest, ht, hsol, hexp, -⟩ :=
      reads_ending (hls.of_suffix ⟨code ++ [c], by simp⟩) hend
    refine ⟨code, c, after, rfl, hc, solution, t₅, expected ++ rest, ?_, hexp⟩
    rw [ht, labelled_feed_iff isLabel_solution]
    exact hsol

theorem not_closable_iff (hls : Feedless ls) :
    ¬ Closable ls ↔ Body.upToClosing? ls = none := by
  rw [closable_iff hls, Bool.not_eq_true, Option.isSome_eq_false_iff, Option.isNone_iff_eq_none]

theorem upToClosing?_further {found : List Line × List Char × List Char}
    (e : Body.upToClosing? ls = some found) (further : List Line) :
    Body.upToClosing? (ls ++ further) = some found := by
  induction ls generalizing found with
  | nil => cases e
  | cons l ls ih =>
    rw [Body.upToClosing?] at e
    rw [List.cons_append, Body.upToClosing?]
    cases hend : if Body.isClosing l then Body.ending? ls else none with
    | some fields =>
      rw [hend] at e
      split at hend
      · rw [if_pos ‹_›, ending?_further hend]
        exact e
      · cases hend
    | none =>
      rw [hend] at e
      obtain ⟨⟨code, fields⟩, hrest, hfound⟩ := Option.map_eq_some_iff.1 e
      obtain ⟨c, after, rfl, hc, hafter⟩ := eq_of_upToClosing? hrest
      -- a fence that closes nothing here still closes nothing
      rw [ending?_further_of_closes hc (by rw [hafter]; rfl), hend, ih hrest, ← hfound]
      rfl

/-- A block that is not reopened stays what it is. -/
theorem fenced?_further {l : Line} {found : List Char × List Char × List Char}
    (e : Body.fenced? (l :: ls) = some found) {further : List Line}
    (h : Body.upToClosing? ls = none → Body.upToClosing? (ls ++ further) = none) :
    Body.fenced? (l :: ls ++ further) = some found := by
  rw [Body.fenced?] at e
  rw [List.cons_append, Body.fenced?]
  cases hcode : Body.upToClosing? ls with
  | some code =>
    rw [hcode] at e
    rw [upToClosing?_further hcode]
    exact e
  | none =>
    rw [hcode] at e
    rw [h hcode]
    simp only at e ⊢
    split at e
    · obtain ⟨fields, hend, e⟩ := Option.map_eq_some_iff.1 e
      rw [if_pos ‹_›, ending?_further hend]
      exact congrArg some e
    · cases e

theorem closes_of_fenced? {l : Line} {found : List Char × List Char × List Char}
    (e : Body.fenced? (l :: ls) = some found) (h : Body.upToClosing? ls = none) :
    Closes l ∧ found.1 = [] := by
  rw [Body.fenced?, h] at e
  simp only at e
  split at e
  · obtain ⟨fields, -, rfl⟩ := Option.map_eq_some_iff.1 e
    exact ⟨isClosing_iff.1 ‹_›, rfl⟩
  · cases e

theorem exists_closing_of_fenced? {found : List Char × List Char × List Char}
    (e : Body.fenced? ls = some found) : ∃ a c after, ls = a ++ c :: after ∧ Closes c ∧
      (Body.ending? after).isSome = true := by
  cases ls with
  | nil => cases e
  | cons l ls =>
    cases hcode : Body.upToClosing? ls with
    | some found =>
      obtain ⟨code, fields⟩ := found
      obtain ⟨c, after, rfl, hc, hend⟩ := eq_of_upToClosing? hcode
      exact ⟨l :: code, c, after, rfl, hc, by rw [hend]; rfl⟩
    | none =>
      obtain ⟨hc, -⟩ := closes_of_fenced? e hcode
      rw [Body.fenced?, hcode] at e
      simp only [isClosing_iff.2 hc, if_true] at e
      refine ⟨[], l, ls, rfl, hc, ?_⟩
      rw [← Option.isSome_map, e]
      rfl

end

/-! ## Code labels -/

theorem exists_below_of_block? {ls : List Line} {found : List Char × List Char × List Char}
    (e : Body.block? ls = some found) : ∃ o below, ls = o :: below ∧
      (Body.afterFence? o).isSome = true ∧ Body.fenced? below = some found := by
  cases ls with
  | nil => cases e
  | cons o below =>
    rw [Body.block?] at e
    split at e
    · exact ⟨o, below, rfl, ‹_›, e⟩
    · cases e

/-- Lines that hold a closing fence with an ending and begin with no block begin with no fence. -/
theorem block?_further_eq_none {l c : Line} {a after : List Line} (hc : Closes c)
    (hend : (Body.ending? after).isSome = true) (e : Body.block? (l :: (a ++ c :: after)) = none)
    (further : List Line) : Body.block? (l :: (a ++ c :: after) ++ further) = none := by
  have hblock := isSome_fenced? (a := a) hc hend
  rw [Body.block?] at e
  rw [List.cons_append, Body.block?]
  split at e
  · rw [e] at hblock
    cases hblock
  · rw [if_neg ‹_›]

/-- The code block is the one below the first code label that an opening fence follows, so that
further lines cannot move it. -/
theorem upToCode?_further {ls before : List Line} {found : List Char × List Char × List Char}
    (e : Body.upToCode? ls = some (before, found)) : ∃ l o below, ls = before ++ l :: o :: below ∧
      Body.fenced? below = some found ∧ ∀ further found',
        Body.fenced? (below ++ further) = some found' →
        Body.upToCode? (ls ++ further) = some (before, found') := by
  induction ls generalizing before with
  | nil => cases e
  | cons k ls ih =>
    rw [Body.upToCode?] at e
    cases hblock : if Body.isCodeLabel k then Body.block? ls else none with
    | some fields =>
      rw [hblock] at e
      cases e
      split at hblock
      · rename_i hk
        obtain ⟨o, below, rfl, ho, hbelow⟩ := exists_below_of_block? hblock
        refine ⟨k, o, below, rfl, hbelow, fun further found' h => ?_⟩
        rw [List.cons_append, Body.upToCode?, if_pos hk, List.cons_append, Body.block?, if_pos ho,
          h]
      · cases hblock
    | none =>
      rw [hblock] at e
      obtain ⟨⟨before', fields⟩, hrest, e'⟩ := Option.map_eq_some_iff.1 e
      cases e'
      obtain ⟨l, o, below, rfl, hbelow, hfurther⟩ := ih hrest
      obtain ⟨x, c, after, rfl, hc, hend⟩ := exists_closing_of_fenced? hbelow
      refine ⟨l, o, x ++ c :: after, rfl, hbelow, fun further found' h => ?_⟩
      -- with the closing fence below it, a label that begins no block here begins none at all
      obtain ⟨first, a, hfirst⟩ : ∃ first a,
          before' ++ l :: o :: (x ++ c :: after) = first :: (a ++ c :: after) := by
        cases before' with
        | nil => exact ⟨l, o :: x, rfl⟩
        | cons first before' => exact ⟨first, before' ++ l :: o :: x, by simp⟩
      have hnone : (if Body.isCodeLabel k then
          Body.block? (before' ++ l :: o :: (x ++ c :: after) ++ further) else none) = none := by
        rw [hfirst] at hblock ⊢
        split at hblock
        · rw [if_pos ‹_›, block?_further_eq_none hc hend hblock]
        · rw [if_neg ‹_›]
      rw [List.cons_append, Body.upToCode?, hnone, hfurther further found' h]
      rfl

/-! ## Bodies -/

section
variable {ls : List Line} {b : Body}

/-- The lines below the opening fence decide what further lines change. -/
theorem Body.ofLines?_further (hb : Body.ofLines? ls = some b) : ∃ below,
    Body.belowFence? ls = some below ∧ below <:+ ls ∧
      Body.fenced? below = some (b.code, b.solution, b.expected) ∧
      ∀ further code solution expected,
        Body.fenced? (below ++ further) = some (code, solution, expected) →
        Body.ofLines? (ls ++ further) =
          some ⟨b.description, b.impact, code, solution, expected⟩ := by
  simp only [Body.ofLines?, Option.bind_eq_bind, Option.bind_eq_some_iff] at hb
  obtain ⟨⟨first, ls₁⟩, hd, ⟨description, impact, ls₂⟩, hi, ⟨more, code, solution, expected⟩, hc,
    hb⟩ := hb
  cases hb
  obtain ⟨blanks, k, rfl, -, -⟩ := (atLabel?_eq_some_iff isLabel_description).1 hd
  obtain ⟨l', rfl, -⟩ := eq_of_upToLabel? hi
  obtain ⟨l, o, below, rfl, hbelow, hfurther⟩ := upToCode?_further hc
  refine ⟨below, ?_, ?_, hbelow, fun further code' solution' expected' h => ?_⟩
  · simp [Body.belowFence?, hd, hi, hc]
  · exact ⟨blanks ++ k :: (description ++ l' :: (more ++ [l, o])), by simp⟩
  · simp only [Body.ofLines?, atLabel?_further isLabel_description hd, upToLabel?_further hi,
      hfurther further _ h, Option.bind_eq_bind, Option.bind_some]
    rfl

/-- Further lines that do not reopen the code block change no field. -/
theorem Body.ofLines?_of_not_reopened {further : List Line} (hls : Feedless ls)
    (hfurther : Feedless further) (hb : Body.ofLines? ls = some b) (h : ¬ Reopened ls further) :
    Body.ofLines? (ls ++ further) = some b := by
  obtain ⟨below, hbelow, hsuffix, hfenced, hkeep⟩ := Body.ofLines?_further hb
  refine hkeep further _ _ _ ?_
  cases below with
  | nil => cases hfenced
  | cons c below =>
    have hfeedless : Feedless below := (hls.of_suffix hsuffix).tail
    refine fenced?_further hfenced fun hnone => ?_
    rw [← not_closable_iff hfeedless] at hnone
    rw [← not_closable_iff (List.forall_mem_append.2 ⟨hfeedless, hfurther⟩)]
    intro hclosable
    have hopen := (not_closable_iff hfeedless).1 hnone
    exact h ⟨c, below, hbelow, (closes_of_fenced? hfenced hopen).1, hnone, hclosable⟩

/-- Further lines that reopen the code block, which was empty, give it code that begins with the
fence it was closed by. -/
theorem Body.ofLines?_of_reopened {further : List Line} (hls : Feedless ls)
    (hfurther : Feedless further) (hb : Body.ofLines? ls = some b) (h : Reopened ls further) :
    b.code = [] ∧ ∃ c code solution expected, Closes c ∧ Body.ofLines? (ls ++ further) =
      some ⟨b.description, b.impact, c ++ stack code, solution, expected⟩ := by
  obtain ⟨below, hbelow, hsuffix, hfenced, hkeep⟩ := Body.ofLines?_further hb
  obtain ⟨c, below', hbelow', hc, hopen, hclosable⟩ := h
  cases hbelow.symm.trans hbelow'
  have hfeedless : Feedless below' := (hls.of_suffix hsuffix).tail
  rw [not_closable_iff hfeedless] at hopen
  rw [closable_iff (List.forall_mem_append.2 ⟨hfeedless, hfurther⟩),
    Option.isSome_iff_exists] at hclosable
  obtain ⟨⟨code, solution, expected⟩, hcode⟩ := hclosable
  refine ⟨(closes_of_fenced? hfenced hopen).2, c, code, solution, expected, hc, ?_⟩
  refine hkeep further _ _ _ ?_
  rw [List.cons_append, Body.fenced?, hcode, ← joinLines_cons]

end

end PerfReview.Response
