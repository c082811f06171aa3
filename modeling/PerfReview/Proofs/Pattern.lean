import PerfReview.Pattern
import PerfReview.Proofs.Text.Cut

/-!
# What patterns stand for

`Stands pattern text`: the text is put together from what the parts of the pattern stand for, a star
standing for any text, a question mark for any character, brackets for a character of their set, and
every other character for itself. A path fits a pattern if the pattern stands for it, and a pattern
that starts with two stars and a slash matches a path if its rest stands for the path or for what
follows one of its slashes.
-/

namespace PerfReview.Pattern

/-- The text can be enclosed in brackets: an exclamation mark before it apart, it has a first
character, and only that may be a closing bracket. -/
inductive Enclosed : List Char → Prop where
  | plain {first : Char} {content : List Char} : first ≠ '!' → ']' ∉ content →
      Enclosed (first :: content)
  | negated {first : Char} {content : List Char} : ']' ∉ content →
      Enclosed ('!' :: first :: content)

/-- The pattern stands for the text, among others. -/
inductive Stands : List Char → List Char → Prop where
  | nil : Stands [] []
  | star {p s : List Char} (run : List Char) : Stands p s → Stands ('*' :: p) (run ++ s)
  | mark {p s : List Char} (c : Char) : Stands p s → Stands ('?' :: p) (c :: s)
  | set {content p s : List Char} {c : Char} : Enclosed content →
      (setOf content).accepts c = true → Stands p s →
      Stands ('[' :: (content ++ ']' :: p)) (c :: s)
  /-- A bracket that encloses nothing stands for itself. -/
  | bracket {p s : List Char} : (∀ content rest, Enclosed content → p ≠ content ++ ']' :: rest) →
      Stands p s → Stands ('[' :: p) ('[' :: s)
  | char {p s : List Char} {c : Char} : c ∉ ['*', '?', '['] → Stands p s → Stands (c :: p) (c :: s)

variable {p q s t content rest : List Char} {c : Char}

/-! ## Brackets -/

/-- The first closing bracket, looked for behind the characters of `head`. -/
theorem closing_eq_some_iff {head : List Char} :
    (match s.span (· ≠ ']') with
      | (inner, _ :: rest) => some (head ++ inner, rest)
      | (_, []) => none) = some (content, rest) ↔
    ∃ inner, content = head ++ inner ∧ ']' ∉ inner ∧ s = inner ++ ']' :: rest := by
  constructor
  · intro h
    split at h
    · rename_i inner d rest' hspan
      obtain ⟨rfl, rfl⟩ := Prod.mk.inj (Option.some.inj h)
      obtain ⟨rfl, hinner, hstop⟩ := Text.eq_of_span hspan
      have hd : d = ']' := by simpa using hstop d rfl
      exact ⟨inner, rfl, fun hmem => by simpa using hinner _ hmem, by rw [hd]⟩
    · cases h
  · rintro ⟨inner, rfl, hinner, rfl⟩
    have hspan : (inner ++ ']' :: rest).span (· ≠ ']') = (inner, ']' :: rest) :=
      Text.span_append_of_stops (fun c hc => decide_eq_true fun e => hinner (e ▸ hc))
        (Text.stops_cons (by simp))
    rw [hspan]

/-- Where no closing bracket comes first, a character stands before the next one, and that is the
first one behind it. -/
theorem closes_iff (hs : ∀ t, s ≠ ']' :: t) :
    ']' ∉ content ∧ s = content ++ ']' :: rest ↔
      ∃ first inner, content = first :: inner ∧ ']' ∉ inner ∧ s = content ++ ']' :: rest := by
  constructor
  · rintro ⟨hcontent, rfl⟩
    cases content with
    | nil => exact absurd rfl (hs rest)
    | cons first inner =>
      exact ⟨first, inner, rfl, fun hmem => hcontent (List.mem_cons_of_mem first hmem), rfl⟩
  · rintro ⟨first, inner, rfl, hinner, rfl⟩
    refine ⟨fun hmem => ?_, rfl⟩
    rcases List.mem_cons.1 hmem with rfl | hmem
    · exact hs _ rfl
    · exact hinner hmem

theorem bracket?_eq_some_iff :
    bracket? s = some (content, rest) ↔ Enclosed content ∧ s = content ++ ']' :: rest := by
  unfold bracket?
  split
  rename_i head tail hhead
  refine closing_eq_some_iff.trans ?_
  split at hhead
  case h_1 =>
    cases hhead
    constructor
    · rintro ⟨inner, rfl, hinner, rfl⟩
      exact ⟨.negated hinner, rfl⟩
    · rintro ⟨hne | hinner, e⟩
      · exact absurd (List.cons.inj e).1.symm hne
      · obtain ⟨rfl, rfl⟩ := List.cons.inj (List.cons.inj e).2
        exact ⟨_, rfl, hinner, rfl⟩
  case h_2 htail =>
    cases hhead
    constructor
    · rintro ⟨inner, rfl, hinner, e⟩
      obtain ⟨first, inner, rfl, hinner, rfl⟩ := (closes_iff htail).1 ⟨hinner, e⟩
      exact ⟨.negated hinner, rfl⟩
    · rintro ⟨hne | hinner, e⟩
      · exact absurd (List.cons.inj e).1.symm hne
      · exact ⟨_, rfl, (closes_iff htail).2 ⟨_, _, rfl, hinner, (List.cons.inj e).2⟩⟩
  case h_3 =>
    cases hhead
    constructor
    · rintro ⟨inner, rfl, hinner, rfl⟩
      exact ⟨.plain (by decide) hinner, rfl⟩
    · rintro ⟨hne | hinner, e⟩
      · obtain ⟨rfl, rfl⟩ := List.cons.inj e
        exact ⟨_, rfl, ‹_›, rfl⟩
      · exact absurd (List.cons.inj e).1 (by decide)
  case h_4 hmark hfirst =>
    cases hhead
    constructor
    · rintro ⟨_, rfl, hinner, e⟩
      obtain ⟨first, inner, rfl, hinner, rfl⟩ := (closes_iff hfirst).1 ⟨hinner, e⟩
      refine ⟨.plain ?_ hinner, rfl⟩
      rintro rfl
      exact hmark _ rfl
    · rintro ⟨hcontent, e⟩
      cases hcontent with
      | plain hne hinner =>
        exact ⟨_, rfl, (closes_iff hfirst).2 ⟨_, _, rfl, hinner, e⟩⟩
      | negated => exact absurd e (hmark _)

theorem bracket?_eq_none_iff :
    bracket? s = none ↔ ∀ content rest, Enclosed content → s ≠ content ++ ']' :: rest := by
  rw [Option.eq_none_iff_forall_ne_some]
  constructor
  · exact fun h content rest hcontent e => h (content, rest) (bracket?_eq_some_iff.2 ⟨hcontent, e⟩)
  · intro h ⟨content, rest⟩ e
    obtain ⟨hcontent, e⟩ := bracket?_eq_some_iff.1 e
    exact h content rest hcontent e

/-! ## Sets -/

theorem setPieces_eq_singleton {piece : List Char} {wait : Nat} (h : '-' ∉ content) :
    setPieces piece wait content = [piece.reverse ++ content] := by
  induction content generalizing piece wait with
  | nil => rw [setPieces, List.append_nil]
  | cons c content ih =>
    rw [List.mem_cons, not_or] at h
    have hc : ¬ c = '-' := fun e => h.1 e.symm
    simp [setPieces, hc, ih h.2]

theorem any_ranges_iff : ((content.map fun x => (x, x)).any fun (lo, hi) => lo ≤ c && c ≤ hi) =
    true ↔ c ∈ content := by
  simp only [List.any_map, List.any_eq_true, Function.comp, Bool.and_eq_true, decide_eq_true_eq]
  constructor
  · rintro ⟨x, hx, hle, hge⟩
    rwa [Char.le_antisymm hge hle]
  · exact fun hc => ⟨c, hc, Char.le_refl c, Char.le_refl c⟩

/-- Brackets stand for the characters in them, if these make no ranges. -/
theorem accepts_setOf_iff (h : '-' ∉ content) (hfirst : content.head? ≠ some '!') :
    (setOf content).accepts c = true ↔ c ∈ content := by
  have hset : setOf content = .set false (content.map fun x => (x, x)) := by
    unfold setOf
    simp only [setPieces_eq_singleton h, List.reverse_nil, List.nil_append]
    cases content with
    | nil => rfl
    | cons d content =>
      have hd : d ≠ '!' := fun e => hfirst (by rw [e]; rfl)
      simp [dropEmpty, joinEmpty, pieceRanges, hd]
  rw [hset, Item.accepts, Bool.bne_false, any_ranges_iff]

/-- After an exclamation mark they stand for all others. -/
theorem accepts_setOf_negated_iff (h : '-' ∉ content) :
    (setOf ('!' :: content)).accepts c = true ↔ c ∉ content := by
  have hmark : '-' ∉ '!' :: content := by simp [h]
  have hset : setOf ('!' :: content) = .set true (content.map fun x => (x, x)) := by
    simp [setOf, setPieces_eq_singleton hmark, dropEmpty, joinEmpty, pieceRanges]
  rw [hset, Item.accepts, Bool.bne_true, Bool.not_eq_true', ← any_ranges_iff, Bool.not_eq_true]

/-- A hyphen between two characters makes them the ends of a range. -/
theorem accepts_setOf_range_iff {lo hi : Char} (hlo : lo ≠ '!') :
    (setOf [lo, '-', hi]).accepts c = true ↔ lo ≤ c ∧ c ≤ hi := by
  have hpieces : setPieces [] 1 [lo, '-', hi] = [[lo], [hi]] := by simp [setPieces]
  by_cases hlt : hi < lo
  · have hset : setOf [lo, '-', hi] = .set false [] := by
      simp [setOf, hpieces, hlo, dropEmpty, joinEmpty, hlt, pieceRanges]
    simp only [hset, Item.accepts, List.any_nil, Bool.bne_false, Bool.false_eq_true, false_iff]
    exact fun ⟨hle, hge⟩ => Char.not_le.2 hlt (Char.le_trans hle hge)
  · have hset : setOf [lo, '-', hi] = .set false [(lo, lo), (lo, hi), (hi, hi)] := by
      simp [setOf, hpieces, hlo, dropEmpty, joinEmpty, hlt, pieceRanges]
    simp only [hset, Item.accepts, List.any_cons, List.any_nil, Bool.bne_false, Bool.or_eq_true,
      Bool.and_eq_true, decide_eq_true_eq, Bool.false_eq_true, or_false]
    have hle : lo ≤ hi := Char.not_lt.1 hlt
    constructor
    · rintro (⟨h₁, h₂⟩ | h | ⟨h₁, h₂⟩)
      · exact ⟨h₁, Char.le_trans h₂ hle⟩
      · exact h
      · exact ⟨Char.le_trans hle h₁, h₂⟩
    · exact fun h => .inr (.inl h)

/-! ## Parts -/

theorem after?_eq_some_iff {i : Item} :
    after? i s = some t ↔ ∃ c, s = c :: t ∧ i.accepts c = true := by
  cases s with
  | nil => simp [after?]
  | cons c s => by_cases hc : i.accepts c = true <;> simp [after?, hc]

theorem fits_one_iff {i : Item} (h : i ≠ .run) (rest : List Item) :
    fits (i :: rest) s = true ↔ ∃ c t, s = c :: t ∧ i.accepts c = true ∧ fits rest t = true := by
  rw [fits_cons_iff h]
  constructor
  · rintro ⟨t, ht, hrest⟩
    obtain ⟨c, rfl, hc⟩ := after?_eq_some_iff.1 ht
    exact ⟨c, t, rfl, hc, hrest⟩
  · rintro ⟨c, t, rfl, hc, hrest⟩
    exact ⟨t, after?_eq_some_iff.2 ⟨c, rfl, hc⟩, hrest⟩

theorem setOf_ne_run (content : List Char) : setOf content ≠ .run := by
  unfold setOf
  dsimp only
  split <;> exact Item.noConfusion

/-- Fuel beyond the length of a pattern changes nothing. -/
theorem itemsOf_succ {fuel : Nat} (h : p.length ≤ fuel) :
    itemsOf (fuel + 1) p = itemsOf fuel p := by
  fun_induction itemsOf fuel p with
  | case1 p =>
    cases List.length_eq_zero_iff.1 (Nat.le_zero.1 h)
    rfl
  | case2 => rfl
  | case3 fuel p ih => exact congrArg (.run :: ·) (ih (Nat.le_of_succ_le_succ h))
  | case4 fuel p ih => exact congrArg (.one :: ·) (ih (Nat.le_of_succ_le_succ h))
  | case5 fuel p content rest hb ih =>
    obtain ⟨-, rfl⟩ := bracket?_eq_some_iff.1 hb
    simp only [List.length_cons, List.length_append] at h
    rw [itemsOf, hb]
    exact congrArg (setOf content :: ·) (ih (by omega))
  | case6 fuel p hb ih =>
    rw [itemsOf, hb]
    exact congrArg (.char '[' :: ·) (ih (Nat.le_of_succ_le_succ h))
  | case7 fuel c p hstar hmark hbracket ih =>
    rw [itemsOf, ih (Nat.le_of_succ_le_succ h)]
    · exact hstar
    · exact hmark
    · exact hbracket

theorem itemsOf_eq_items {fuel : Nat} (h : p.length ≤ fuel) : itemsOf fuel p = items p := by
  induction h with
  | refl => rfl
  | step h ih => exact (itemsOf_succ h).trans ih

theorem items_star (p : List Char) : items ('*' :: p) = .run :: items p := rfl

theorem items_mark (p : List Char) : items ('?' :: p) = .one :: items p := rfl

theorem items_char (h : c ∉ ['*', '?', '[']) (p : List Char) :
    items (c :: p) = .char c :: items p := by
  simp only [List.mem_cons, List.not_mem_nil, or_false, not_or] at h
  obtain ⟨hstar, hmark, hbracket⟩ := h
  unfold items
  rw [List.length_cons, itemsOf]
  · exact hstar
  · exact hmark
  · exact hbracket

theorem items_set (h : Enclosed content) (p : List Char) :
    items ('[' :: (content ++ ']' :: p)) = setOf content :: items p := by
  unfold items
  rw [List.length_cons, itemsOf, bracket?_eq_some_iff.2 ⟨h, rfl⟩]
  refine congrArg (setOf content :: ·) (itemsOf_eq_items ?_)
  simp only [List.length_append, List.length_cons]
  omega

theorem items_bracket (h : ∀ content rest, Enclosed content → p ≠ content ++ ']' :: rest) :
    items ('[' :: p) = .char '[' :: items p := by
  unfold items
  rw [List.length_cons, itemsOf, bracket?_eq_none_iff.2 h]

/-! ## Whole patterns -/

theorem Stands.fits_items (h : Stands p s) : fits (items p) s = true := by
  induction h with
  | nil => rfl
  | star run _ ih =>
    rw [items_star]
    exact (fitsTail_iff _ _).2 ⟨_, List.suffix_append run _, ih⟩
  | mark c _ ih =>
    rw [items_mark]
    exact (fits_one_iff Item.noConfusion _).2 ⟨c, _, rfl, rfl, ih⟩
  | set hcontent hc _ ih =>
    rw [items_set hcontent]
    exact (fits_one_iff (setOf_ne_run _) _).2 ⟨_, _, rfl, hc, ih⟩
  | bracket hopen _ ih =>
    rw [items_bracket hopen]
    exact (fits_one_iff Item.noConfusion _).2 ⟨_, _, rfl, rfl, ih⟩
  | char hc _ ih =>
    rw [items_char hc]
    exact (fits_one_iff Item.noConfusion _).2 ⟨_, _, rfl, decide_eq_true rfl, ih⟩

theorem induct {motive : List Char → Prop} (nil : motive [])
    (star : ∀ p, motive p → motive ('*' :: p)) (mark : ∀ p, motive p → motive ('?' :: p))
    (set : ∀ content p, Enclosed content → motive p → motive ('[' :: (content ++ ']' :: p)))
    (bracket : ∀ p, (∀ content rest, Enclosed content → p ≠ content ++ ']' :: rest) → motive p →
      motive ('[' :: p))
    (char : ∀ c p, c ∉ ['*', '?', '['] → motive p → motive (c :: p)) (p : List Char) :
    motive p := by
  obtain ⟨n, hn⟩ : ∃ n, p.length ≤ n := ⟨_, Nat.le_refl _⟩
  induction n generalizing p with
  | zero =>
    cases List.length_eq_zero_iff.1 (Nat.le_zero.1 hn)
    exact nil
  | succ n ih =>
    cases p with
    | nil => exact nil
    | cons c p =>
      have hp : motive p := ih p (Nat.le_of_succ_le_succ hn)
      by_cases hstar : c = '*'
      · exact hstar ▸ star p hp
      by_cases hmark : c = '?'
      · exact hmark ▸ mark p hp
      by_cases hbracket : c = '['
      · subst hbracket
        cases hb : bracket? p with
        | none => exact bracket p (bracket?_eq_none_iff.1 hb) hp
        | some found =>
          obtain ⟨hcontent, e⟩ := bracket?_eq_some_iff.1 hb
          subst e
          refine set _ _ hcontent (ih _ ?_)
          simp only [List.length_append, List.length_cons] at hn
          omega
      · exact char c p (by simp [hstar, hmark, hbracket]) hp

theorem stands_iff_fits : Stands p s ↔ fits (items p) s = true := by
  refine ⟨Stands.fits_items, fun h => ?_⟩
  induction p using induct generalizing s with
  | nil =>
    cases List.isEmpty_iff.1 h
    exact .nil
  | star p ih =>
    obtain ⟨t, ⟨run, rfl⟩, ht⟩ := (fitsTail_iff _ _).1 h
    exact .star run (ih ht)
  | mark p ih =>
    obtain ⟨c, t, rfl, -, ht⟩ := (fits_one_iff (i := .one) Item.noConfusion _).1 h
    exact .mark c (ih ht)
  | set content p hcontent ih =>
    rw [items_set hcontent] at h
    obtain ⟨c, t, rfl, hc, ht⟩ := (fits_one_iff (setOf_ne_run _) _).1 h
    exact .set hcontent hc (ih ht)
  | bracket p hopen ih =>
    rw [items_bracket hopen] at h
    obtain ⟨c, t, rfl, hc, ht⟩ := (fits_one_iff Item.noConfusion _).1 h
    cases of_decide_eq_true hc
    exact .bracket hopen (ih ht)
  | char c p hplain ih =>
    rw [items_char hplain] at h
    obtain ⟨d, t, rfl, hd, ht⟩ := (fits_one_iff Item.noConfusion _).1 h
    cases of_decide_eq_true hd
    exact .char hplain (ih ht)

theorem globs_iff : globs p s = true ↔ Stands p s := by
  rw [globs_eq_fits, stands_iff_fits]

theorem matchesChars_iff {pattern path : List Char} :
    matchesChars pattern path = true ↔
      Stands pattern path ∨ ∃ rest, pattern = '*' :: '*' :: '/' :: rest ∧ Stands rest path := by
  unfold matchesChars
  rw [Bool.or_eq_true, globs_iff]
  refine or_congr_right ?_
  split
  · rw [globs_iff]
    simp
  · rename_i hnot
    simp only [Bool.false_eq_true, false_iff]
    rintro ⟨rest, rfl, -⟩
    exact hnot rest rfl

/-! ## The start of a pattern -/

theorem stands_starred_iff : Stands ('*' :: '*' :: '/' :: q) s ↔
    ∃ before after, s = before ++ '/' :: after ∧ Stands q after := by
  constructor
  · intro h
    have hfits : fits (.run :: .run :: .char '/' :: items q) s = true := h.fits_items
    obtain ⟨t, ⟨run, rfl⟩, ht⟩ := (fitsTail_iff _ _).1 hfits
    obtain ⟨u, ⟨run', rfl⟩, hu⟩ := (fitsTail_iff _ _).1 ht
    obtain ⟨c, after, rfl, hc, hafter⟩ := (fits_one_iff Item.noConfusion _).1 hu
    cases of_decide_eq_true hc
    exact ⟨run ++ run', after, (List.append_assoc _ _ _).symm, stands_iff_fits.2 hafter⟩
  · rintro ⟨before, after, rfl, hafter⟩
    exact .star before (.star [] (.char (by decide) hafter))

theorem stands_cons_iff (h : c ∉ ['*', '?', '[']) :
    Stands (c :: p) s ↔ ∃ t, s = c :: t ∧ Stands p t := by
  constructor
  · intro hs
    have hfits := hs.fits_items
    rw [items_char h] at hfits
    obtain ⟨d, t, rfl, hd, ht⟩ := (fits_one_iff Item.noConfusion _).1 hfits
    cases of_decide_eq_true hd
    exact ⟨t, rfl, stands_iff_fits.2 ht⟩
  · rintro ⟨t, rfl, hp⟩
    exact .char h hp

theorem stands_append_iff {name : List Char} (h : ∀ c ∈ name, c ∉ ['*', '?', '[']) :
    Stands (name ++ p) s ↔ ∃ t, s = name ++ t ∧ Stands p t := by
  induction name generalizing s with
  | nil => simp
  | cons c name ih =>
    obtain ⟨hc, hname⟩ := List.forall_mem_cons.1 h
    rw [List.cons_append, stands_cons_iff hc]
    constructor
    · rintro ⟨u, rfl, hu⟩
      obtain ⟨t, rfl, ht⟩ := (ih hname).1 hu
      exact ⟨t, rfl, ht⟩
    · rintro ⟨t, rfl, ht⟩
      exact ⟨_, rfl, (ih hname).2 ⟨t, rfl, ht⟩⟩

/-- Two stars stand for every text. -/
theorem stands_stars (s : List Char) : Stands ['*', '*'] s := by
  have h := Stands.star s (.star [] .nil)
  rwa [List.nil_append, List.append_nil] at h

/-- Two stars and a slash before a pattern let it also match what follows a slash. -/
theorem matchesChars_starred_iff : matchesChars ('*' :: '*' :: '/' :: q) s = true ↔
    Stands q s ∨ ∃ before after, s = before ++ '/' :: after ∧ Stands q after := by
  rw [matchesChars_iff, stands_starred_iff, or_comm]
  simp

/-- A name and a slash stand for the texts that start with them, if anything may follow. -/
theorem stands_folder_iff {name : List Char} (h : ∀ c ∈ name, c ∉ ['*', '?', '[']) :
    Stands (name ++ ['/', '*', '*']) s ↔ ∃ t, s = name ++ '/' :: t := by
  rw [stands_append_iff h]
  constructor
  · rintro ⟨t, rfl, ht⟩
    obtain ⟨u, rfl, -⟩ := (stands_cons_iff (by decide)).1 ht
    exact ⟨u, rfl⟩
  · rintro ⟨t, rfl⟩
    exact ⟨'/' :: t, rfl, .char (by decide) (stands_stars t)⟩

/-- A path matches a pattern behind two stars and a slash if the pattern stands for the path or for
what follows one of its slashes. So with a name between `**/` and `/**`, the paths match in which the
name and a slash start a part. -/
theorem matchesPattern_starred :
    (∀ q p : String, matchesPattern ("**/" ++ q) p = true ↔
      Stands q.toList p.toList ∨
        ∃ before after, p.toList = before ++ '/' :: after ∧ Stands q.toList after) ∧
    ∀ name p : String, (∀ c ∈ name.toList, c ∉ ['*', '?', '[']) →
      (matchesPattern ("**/" ++ name ++ "/**") p = true ↔
        ∃ before after, p.toList = before ++ (name.toList ++ '/' :: after) ∧
          (before = [] ∨ before.getLast? = some '/')) := by
  have hstarred : ∀ q p : String, matchesPattern ("**/" ++ q) p = true ↔
      Stands q.toList p.toList ∨
        ∃ before after, p.toList = before ++ '/' :: after ∧ Stands q.toList after := by
    intro q p
    rw [matchesPattern, String.toList_append]
    exact matchesChars_starred_iff
  refine ⟨hstarred, fun name p hname => ?_⟩
  rw [String.append_assoc, hstarred, String.toList_append]
  have hfolder : ∀ s, Stands (name.toList ++ "/**".toList) s ↔ ∃ t, s = name.toList ++ '/' :: t :=
    fun s => stands_folder_iff hname
  simp only [hfolder]
  constructor
  · rintro (⟨t, ht⟩ | ⟨before, after, hp, t, rfl⟩)
    · exact ⟨[], t, ht, .inl rfl⟩
    · exact ⟨before ++ ['/'], t, by simp [hp], .inr List.getLast?_concat⟩
  · rintro ⟨before, after, hp, rfl | hslash⟩
    · exact .inl ⟨after, hp⟩
    · obtain ⟨front, rfl⟩ := List.getLast?_eq_some_iff.1 hslash
      exact .inr ⟨front, name.toList ++ '/' :: after, by simp [hp], after, rfl⟩

theorem matchesPattern_starred_modules :
    (∀ c ∈ "node_modules".toList, c ∉ ['*', '?', '[']) ∧
      matchesPattern "**/node_modules/**" "packages/ui/node_modules/react.js" = true := by
  have hall : ("node_modules".toList.all fun c => c ∉ ['*', '?', '[']) = true := by decide
  have hname : ∀ c ∈ "node_modules".toList, c ∉ ['*', '?', '['] := fun c hc =>
    of_decide_eq_true (List.all_eq_true.1 hall c hc)
  have hpath : "packages/ui/node_modules/react.js".toList =
      "packages/ui/".toList ++ ("node_modules".toList ++ '/' :: "react.js".toList) := by decide
  exact ⟨hname, (matchesPattern_starred.2 "node_modules" _ hname).2
    ⟨_, _, hpath, .inr (by decide)⟩⟩

/-! ## The end of a pattern -/

theorem fits_append_iff {a b : List Item} :
    fits (a ++ b) s = true ↔ ∃ s₁ s₂, s = s₁ ++ s₂ ∧ fits a s₁ = true ∧ fits b s₂ = true := by
  induction a generalizing s with
  | nil =>
    constructor
    · exact fun h => ⟨[], s, rfl, rfl, h⟩
    · rintro ⟨s₁, s₂, rfl, h₁, h₂⟩
      cases List.isEmpty_iff.1 h₁
      exact h₂
  | cons i a ih =>
    rw [List.cons_append]
    by_cases hi : i = .run
    · subst hi
      constructor
      · intro h
        obtain ⟨t, ⟨run, rfl⟩, ht⟩ := (fitsTail_iff _ _).1 h
        obtain ⟨s₁, s₂, rfl, h₁, h₂⟩ := ih.1 ht
        exact ⟨run ++ s₁, s₂, (List.append_assoc _ _ _).symm,
          (fitsTail_iff _ _).2 ⟨s₁, List.suffix_append run s₁, h₁⟩, h₂⟩
      · rintro ⟨s₁, s₂, rfl, h₁, h₂⟩
        obtain ⟨t, ⟨run, rfl⟩, ht⟩ := (fitsTail_iff _ _).1 h₁
        refine (fitsTail_iff _ _).2 ⟨t ++ s₂, ?_, ih.2 ⟨t, s₂, rfl, ht, h₂⟩⟩
        rw [List.append_assoc]
        exact List.suffix_append run _
    · simp only [fits_one_iff hi]
      constructor
      · rintro ⟨c, t, rfl, hc, ht⟩
        obtain ⟨s₁, s₂, rfl, h₁, h₂⟩ := ih.1 ht
        exact ⟨c :: s₁, s₂, rfl, ⟨c, s₁, rfl, hc, h₁⟩, h₂⟩
      · rintro ⟨_, s₂, rfl, ⟨c, s₁, rfl, hc, h₁⟩, h₂⟩
        exact ⟨c, s₁ ++ s₂, rfl, hc, ih.2 ⟨s₁, s₂, rfl, h₁, h₂⟩⟩

/-- A last character closes no bracket, unless it is a closing bracket. -/
theorem items_concat {d : Char} (hd : d ≠ ']') (p : List Char) :
    items (p ++ [d]) = items p ++ items [d] := by
  induction p using induct with
  | nil => rfl
  | star p ih => exact congrArg (.run :: ·) ih
  | mark p ih => exact congrArg (.one :: ·) ih
  | set content p hcontent ih =>
    rw [List.cons_append, List.append_assoc, List.cons_append, items_set hcontent,
      items_set hcontent, ih]
    rfl
  | bracket p hopen ih =>
    rw [List.cons_append, items_bracket hopen, items_bracket, ih]
    · rfl
    · intro content rest hcontent e
      rcases List.eq_nil_or_concat rest with rfl | ⟨rest, d', rfl⟩
      · obtain ⟨-, e⟩ := List.append_inj' e rfl
        exact hd (List.cons.inj e).1
      · rw [List.concat_eq_append, ← List.cons_append, ← List.append_assoc] at e
        exact hopen content rest hcontent (List.append_inj' e rfl).1
  | char c p hplain ih =>
    rw [List.cons_append, items_char hplain, items_char hplain, ih]
    rfl

theorem stands_concat_iff {d : Char} (hd : d ≠ ']') :
    Stands (p ++ [d]) s ↔ ∃ s₁ s₂, s = s₁ ++ s₂ ∧ Stands p s₁ ∧ Stands [d] s₂ := by
  simp only [stands_iff_fits, items_concat hd, fits_append_iff]

/-- A pattern that ends with a star stands for whatever continues a text that it stands for. -/
theorem Stands.extend (h : Stands (p ++ ['*']) s) (t : List Char) :
    Stands (p ++ ['*']) (s ++ t) := by
  obtain ⟨s₁, s₂, rfl, h₁, -⟩ := (stands_concat_iff (by decide)).1 h
  have hstar : Stands ['*'] (s₂ ++ t) := by
    have := Stands.star (s₂ ++ t) .nil
    rwa [List.append_nil] at this
  exact (stands_concat_iff (by decide)).2 ⟨s₁, s₂ ++ t, List.append_assoc _ _ _, h₁, hstar⟩

/-- A pattern that ends with a character without a meaning of its own stands for texts that end with
this character. -/
theorem Stands.getLast?_eq {d : Char} (hd : d ∉ ['*', '?', '[', ']']) (h : Stands (p ++ [d]) s) :
    s.getLast? = some d := by
  have hplain : d ∉ ['*', '?', '['] := fun hmem => hd (List.mem_append_left [']'] hmem)
  have hclose : d ≠ ']' := fun e => hd (by simp [e])
  obtain ⟨s₁, s₂, rfl, -, h₂⟩ := (stands_concat_iff hclose).1 h
  obtain ⟨t, rfl, ht⟩ := (stands_cons_iff hplain).1 h₂
  cases ht
  exact List.getLast?_concat

/-- The pattern ends with a star, a letter or a digit. -/
def EndsPlainly (pattern : List Char) : Prop :=
  pattern.getLast?.any (fun c => c = '*' || c.isAlphanum) = true

instance (pattern : List Char) : Decidable (EndsPlainly pattern) :=
  inferInstanceAs (Decidable (_ = true))

theorem EndsPlainly.exists_eq_concat (h : EndsPlainly p) :
    ∃ front c, p = front ++ [c] ∧ (c = '*' ∨ c.isAlphanum = true) := by
  obtain ⟨c, hc, hend⟩ := (Option.any_eq_true _ _).1 h
  obtain ⟨front, rfl⟩ := List.getLast?_eq_some_iff.1 hc
  exact ⟨front, c, rfl, by simpa using hend⟩

/-- A pattern that stands for a text with a slash at its end stands for whatever continues it. -/
theorem Stands.further (hp : EndsPlainly p) (h : Stands p (s ++ ['/'])) (t : List Char) :
    Stands p (s ++ '/' :: t) := by
  obtain ⟨front, c, rfl, hend⟩ := hp.exists_eq_concat
  rcases hend with rfl | halnum
  · have hcut : s ++ '/' :: t = s ++ ['/'] ++ t := List.append_cons s '/' t
    rw [hcut]
    exact h.extend t
  · -- no letter and no digit is a slash
    have hplain : c ∉ ['*', '?', '[', ']'] := by
      intro hmem
      simp only [List.mem_cons, List.not_mem_nil, or_false] at hmem
      rcases hmem with rfl | rfl | rfl | rfl <;> exact absurd halnum (by decide)
    have hslash : some '/' = some c := List.getLast?_concat.symm.trans (h.getLast?_eq hplain)
    cases hslash
    exact absurd halnum (by decide)

/-- What matches a folder with a slash after it matches every path below the folder. -/
theorem matchesChars_below (hp : EndsPlainly p) (h : matchesChars p (s ++ ['/']) = true)
    (t : List Char) : matchesChars p (s ++ '/' :: t) = true := by
  rcases matchesChars_iff.1 h with hs | ⟨rest, rfl, hs⟩
  · exact matchesChars_iff.2 (.inl (hs.further hp t))
  · refine matchesChars_iff.2 (.inr ⟨rest, rfl, hs.further ?_ t⟩)
    -- the rest is not empty, since its slash would be the end
    cases rest with
    | nil => exact absurd hp (by decide)
    | cons c rest => exact hp

end PerfReview.Pattern
