import PerfReview.Proofs.Text.Cut
import PerfReview.Response.Header

/-!
# The form of header lines

`Header.Fits h l` cuts the line `l` into the parts that a header line has: a lead that may hold a
bullet, a marker, a path, a colon and two runs of digits. `Header.ofLine?` reads exactly the lines
that fit, and a line fits one header at most.
-/

namespace PerfReview.Response

open Text

def Digits (s : List Char) : Prop := s ≠ [] ∧ ∀ c ∈ s, isDigit c = true

/-- The first and the last character are there and are no white space. -/
def Tight (s : List Char) : Prop :=
  (∃ c, s.head? = some c ∧ isBlank c = false) ∧ ∃ c, s.getLast? = some c ∧ isBlank c = false

inductive Bullet : List Char → Prop where
  | hyphen : Bullet ['-']
  | star : Bullet ['*']
  | number {ds : List Char} {c : Char} : Digits ds → c = '.' ∨ c = ')' → Bullet (ds ++ [c])

inductive Marks : Severity → List Char → Prop where
  | critical : Marks .critical ['🚨']
  | warning : Marks .warning ['⚠', '\uFE0F']
  | plainWarning : Marks .warning ['⚠']
  | suggestion : Marks .suggestion ['💡']

/-- What may stand before a marker. -/
inductive Lead : List Char → Prop where
  | indent {g : List Char} : Gaps g → Lead g
  | bullet {g b g' : List Char} : Gaps g → Bullet b → Gaps g' → g' ≠ [] → Lead (g ++ b ++ g')

/-- Two runs of digits, a hyphen between them and blanks around. -/
def SpanForm (first last s : List Char) : Prop :=
  Digits first ∧ Digits last ∧ ∃ g₁ g₂ g₃ g₄, Gaps g₁ ∧ Gaps g₂ ∧ Gaps g₃ ∧ Gaps g₄ ∧
    s = g₁ ++ first ++ g₂ ++ '-' :: g₃ ++ last ++ g₄

/-- A path, a colon with blanks before it, and a span of lines. -/
def CitationForm (path first last s : List Char) : Prop :=
  Tight path ∧ ∃ gap span, Gaps gap ∧ SpanForm first last span ∧ s = path ++ gap ++ ':' :: span

/-- The line is a header line with the parts of `h`. -/
def Header.Fits (h : Header) (line : List Char) : Prop :=
  ∃ lead marker gap cited, Lead lead ∧ Marks h.severity marker ∧ Gaps gap ∧ gap ≠ [] ∧
    CitationForm h.path h.first h.last cited ∧ line = lead ++ marker ++ gap ++ cited

/-! ## Classes of characters -/

theorem isDigit_of_isGap {c : Char} (h : isGap c = true) : isDigit c = false := by
  simp only [isGap, Bool.or_eq_true, decide_eq_true_eq] at h
  rcases h with rfl | rfl <;> decide

theorem isGap_of_isDigit {c : Char} (h : isDigit c = true) : isGap c = false := by
  cases hg : isGap c with
  | false => rfl
  | true => rw [isDigit_of_isGap hg] at h; cases h

theorem isGap_of_isBlank_eq_false {c : Char} (h : isBlank c = false) : isGap c = false := by
  cases hg : isGap c with
  | false => rfl
  | true => rw [isBlank_of_isGap hg] at h; cases h

theorem Digits.stops {ds : List Char} (h : Digits ds) (s : List Char) : Stops isGap (ds ++ s) := by
  obtain ⟨hne, hd⟩ := h
  cases ds with
  | nil => exact absurd rfl hne
  | cons d ds => exact stops_cons (isGap_of_isDigit (hd d List.mem_cons_self))

theorem stops_gaps {g s : List Char} (h : Gaps g) (hs : Stops isDigit s) :
    Stops isDigit (g ++ s) := by
  cases g with
  | nil => exact hs
  | cons c g => exact stops_cons (isDigit_of_isGap (h c List.mem_cons_self))

theorem Tight.stops {p : List Char} (h : Tight p) (s : List Char) : Stops isGap (p ++ s) := by
  obtain ⟨⟨c, hc, hb⟩, -⟩ := h
  cases p with
  | nil => cases hc
  | cons d p =>
    cases hc
    exact stops_cons (isGap_of_isBlank_eq_false hb)

/-! ## Spans and citations -/

theorem span?_eq_some {s first last : List Char} (h : Header.span? s = some (first, last)) :
    SpanForm first last s := by
  unfold Header.span? at h
  split at h
  · rename_i d ds rest hd
    split at h
    · rename_i rest' hm
      split at h
      · rename_i e es tail he
        split at h
        · rename_i ht
          cases h
          obtain ⟨g₁, hg₁, e₁⟩ := eq_run_append isGap s
          obtain ⟨g₂, hg₂, e₂⟩ := eq_run_append isGap rest
          obtain ⟨g₃, hg₃, e₃⟩ := eq_run_append isGap rest'
          obtain ⟨hd₁, hd₂, -⟩ := eq_of_span hd
          obtain ⟨he₁, he₂, -⟩ := eq_of_span he
          refine ⟨⟨by simp, hd₂⟩, ⟨by simp, he₂⟩, g₁, g₂, g₃, tail, hg₁, hg₂, hg₃,
            List.all_eq_true.1 ht, ?_⟩
          rw [e₁, hd₁, e₂, hm, e₃, he₁]
          simp
        · cases h
      · cases h
    · cases h
  · cases h

theorem span?_of_spanForm {s first last : List Char} (h : SpanForm first last s) :
    Header.span? s = some (first, last) := by
  obtain ⟨hf, hl, g₁, g₂, g₃, g₄, h₁, h₂, h₃, h₄, rfl⟩ := h
  have hyphen : Stops isDigit ('-' :: (g₃ ++ (last ++ g₄))) := stops_cons (by decide)
  have e₁ : ((g₁ ++ (first ++ (g₂ ++ '-' :: (g₃ ++ (last ++ g₄))))).dropWhile isGap).span isDigit =
      (first, g₂ ++ '-' :: (g₃ ++ (last ++ g₄))) := by
    rw [dropWhile_append_of_stops h₁ (hf.stops _)]
    exact span_append_of_stops hf.2 (stops_gaps h₂ hyphen)
  have e₂ : (g₂ ++ '-' :: (g₃ ++ (last ++ g₄))).dropWhile isGap = '-' :: (g₃ ++ (last ++ g₄)) :=
    dropWhile_append_of_stops h₂ (stops_cons (by decide))
  have e₃ : ((g₃ ++ (last ++ g₄)).dropWhile isGap).span isDigit = (last, g₄) := by
    rw [dropWhile_append_of_stops h₃ (hl.stops _)]
    refine span_append_of_stops hl.2 ?_
    simpa using stops_gaps h₄ (stops_nil _)
  obtain ⟨d, ds, rfl⟩ := List.exists_cons_of_ne_nil hf.1
  obtain ⟨e, es, rfl⟩ := List.exists_cons_of_ne_nil hl.1
  simp only [List.append_assoc, List.cons_append] at e₁ e₂ e₃ ⊢
  unfold Header.span?
  simp only [e₁, e₂, e₃]
  rw [if_pos (List.all_eq_true.2 h₄)]

theorem span?_eq_some_iff {s first last : List Char} :
    Header.span? s = some (first, last) ↔ SpanForm first last s :=
  ⟨span?_eq_some, span?_of_spanForm⟩

/-- A span of lines holds no colon, so the colon before it is the last one of its line. -/
theorem SpanForm.colon_notMem {first last s : List Char} (h : SpanForm first last s) :
    ':' ∉ s := by
  obtain ⟨hf, hl, g₁, g₂, g₃, g₄, h₁, h₂, h₃, h₄, rfl⟩ := h
  have hg : ∀ {g : List Char}, Gaps g → ':' ∉ g := fun h hm => absurd (h _ hm) (by decide)
  have hd : ∀ {ds : List Char}, Digits ds → ':' ∉ ds := fun h hm => absurd (h.2 _ hm) (by decide)
  simp [hg h₁, hg h₂, hg h₃, hg h₄, hd hf, hd hl]

theorem isPath_iff {s : List Char} : Header.isPath s = true ↔ Tight s := by
  unfold Header.isPath Tight
  cases h : s.head? with
  | none => simp
  | some c =>
    cases h' : s.getLast? with
    | none => simp
    | some d => simp

/-- The path before a colon is what is left without the blanks in front of the colon. -/
theorem dropBack_append {path gap : List Char} (hp : Tight path) (hg : Gaps gap) :
    ((path ++ gap).reverse.dropWhile isGap).reverse = path := by
  obtain ⟨-, c, hc, hb⟩ := hp
  rw [List.reverse_append, dropWhile_append_of_stops, List.reverse_reverse]
  · exact fun d hd => hg d (List.mem_reverse.1 hd)
  · intro d hd
    rw [List.head?_reverse, hc] at hd
    cases hd
    exact isGap_of_isBlank_eq_false hb

theorem citation?_eq_some_iff {s path first last : List Char} :
    Header.citation? s = some (path, first, last) ↔ CitationForm path first last s := by
  constructor
  · intro h
    simp only [Header.citation?, Option.bind_eq_bind, Option.bind_eq_some_iff] at h
    obtain ⟨⟨before, after⟩, hs, ⟨first', last'⟩, hspan, hp⟩ := h
    split at hp
    · rename_i htight
      cases hp
      obtain ⟨gap, hg, e⟩ := eq_run_append isGap before.reverse
      refine ⟨isPath_iff.1 htight, gap.reverse, after, fun c hc => hg c (List.mem_reverse.1 hc),
        span?_eq_some_iff.1 hspan, ?_⟩
      rw [(splitLast?_eq_some_iff.1 hs).1, ← List.reverse_append, ← e, List.reverse_reverse]
    · cases hp
  · rintro ⟨hp, gap, span, hg, hspan, rfl⟩
    have hs : splitLast? ':' (path ++ gap ++ ':' :: span) = some (path ++ gap, span) :=
      splitLast?_eq_some_iff.2 ⟨rfl, hspan.colon_notMem⟩
    simp only [Header.citation?, hs, span?_eq_some_iff.2 hspan, Option.bind_eq_bind,
      Option.bind_some, dropBack_append hp hg]
    rw [if_pos (isPath_iff.2 hp)]

/-! ## Leads and markers -/

theorem afterGap?_eq_some_iff {s t : List Char} :
    Header.afterGap? s = some t ↔ ∃ g, Gaps g ∧ g ≠ [] ∧ s = g ++ t ∧ Stops isGap t := by
  constructor
  · intro h
    unfold Header.afterGap? at h
    split at h
    · rename_i c s
      split at h
      · rename_i hc
        cases h
        obtain ⟨g, hg, e⟩ := eq_run_append isGap s
        refine ⟨c :: g, ?_, by simp, by rw [List.cons_append, ← e], stops_dropWhile _ _⟩
        exact List.forall_mem_cons.2 ⟨hc, hg⟩
      · cases h
    · cases h
  · rintro ⟨g, hg, hne, rfl, ht⟩
    obtain ⟨c, g, rfl⟩ := List.exists_cons_of_ne_nil hne
    obtain ⟨hc, hg⟩ := List.forall_mem_cons.1 hg
    simp only [List.cons_append, Header.afterGap?, hc, if_true,
      dropWhile_append_of_stops hg ht]

theorem afterBullet?_eq_some {s t : List Char} (h : Header.afterBullet? s = some t) :
    ∃ b g, Bullet b ∧ Gaps g ∧ g ≠ [] ∧ s = b ++ g ++ t := by
  unfold Header.afterBullet? at h
  split at h
  · obtain ⟨g, hg, hne, rfl, -⟩ := afterGap?_eq_some_iff.1 h
    exact ⟨_, g, .hyphen, hg, hne, rfl⟩
  · obtain ⟨g, hg, hne, rfl, -⟩ := afterGap?_eq_some_iff.1 h
    exact ⟨_, g, .star, hg, hne, rfl⟩
  · split at h
    · rename_i d ds c rest hs
      split at h
      · rename_i hc
        obtain ⟨g, hg, hne, rfl, -⟩ := afterGap?_eq_some_iff.1 h
        obtain ⟨rfl, hds, -⟩ := eq_of_span hs
        have hc : c = '.' ∨ c = ')' := by simpa using hc
        exact ⟨(d :: ds) ++ [c], g, .number ⟨by simp, hds⟩ hc, hg, hne, by simp⟩
      · cases h
    · cases h

theorem afterBullet?_append {b g t : List Char} (hb : Bullet b) (hg : Gaps g) (hne : g ≠ [])
    (ht : Stops isGap t) : Header.afterBullet? (b ++ g ++ t) = some t := by
  have hgap : Header.afterGap? (g ++ t) = some t :=
    afterGap?_eq_some_iff.2 ⟨g, hg, hne, rfl, ht⟩
  cases hb with
  | hyphen => exact hgap
  | star => exact hgap
  | @number ds c hds hc =>
    have hspan : (ds ++ c :: (g ++ t)).span isDigit = (ds, c :: (g ++ t)) := by
      refine span_append_of_stops hds.2 (stops_cons ?_)
      rcases hc with rfl | rfl <;> decide
    obtain ⟨d, ds, rfl⟩ := List.exists_cons_of_ne_nil hds.1
    have hd : isDigit d = true := hds.2 d List.mem_cons_self
    simp only [List.append_assoc, List.cons_append, List.nil_append] at hspan ⊢
    unfold Header.afterBullet?
    split
    · rename_i e
      cases e
      exact absurd hd (by decide)
    · rename_i e
      cases e
      exact absurd hd (by decide)
    · simp only [hspan]
      rw [if_pos (by simpa using hc), hgap]

/-- No bullet begins with the first character of a marker. -/
theorem afterBullet?_eq_none {c : Char} {s : List Char} (h : c ≠ '-' ∧ c ≠ '*')
    (hd : isDigit c = false) : Header.afterBullet? (c :: s) = none := by
  have hspan : (c :: s).span isDigit = ([], c :: s) :=
    span_append_of_stops (g := []) (by simp) (stops_cons hd)
  unfold Header.afterBullet?
  split
  · rename_i e
    cases e
    exact absurd rfl h.1
  · rename_i e
    cases e
    exact absurd rfl h.2
  · simp only [hspan]

theorem marker?_eq_some {s t : List Char} {v : Severity} (h : Header.marker? s = some (v, t)) :
    ∃ m, Marks v m ∧ s = m ++ t := by
  unfold Header.marker? at h
  split at h <;> cases h
  · exact ⟨_, .critical, rfl⟩
  · exact ⟨_, .warning, rfl⟩
  · exact ⟨_, .plainWarning, rfl⟩
  · exact ⟨_, .suggestion, rfl⟩

theorem marker?_append {v : Severity} {m g s : List Char} (h : Marks v m) (hg : Gaps g)
    (hne : g ≠ []) : Header.marker? (m ++ (g ++ s)) = some (v, g ++ s) := by
  obtain ⟨c, g, rfl⟩ := List.exists_cons_of_ne_nil hne
  have hc : isGap c = true := hg c List.mem_cons_self
  cases h with
  | critical => rfl
  | warning => rfl
  | suggestion => rfl
  | plainWarning =>
    simp only [isGap, Bool.or_eq_true, decide_eq_true_eq] at hc
    rcases hc with rfl | rfl <;> rfl

theorem Marks.exists_cons {v : Severity} {m : List Char} (h : Marks v m) :
    ∃ c s, m = c :: s ∧ (c ≠ '-' ∧ c ≠ '*') ∧ isDigit c = false ∧ isGap c = false := by
  cases h <;> exact ⟨_, _, rfl, by decide, by decide, by decide⟩

theorem Bullet.stops {b : List Char} (h : Bullet b) (s : List Char) : Stops isGap (b ++ s) := by
  cases h with
  | hyphen => exact stops_cons (by decide)
  | star => exact stops_cons (by decide)
  | @number ds c hds hc =>
    rw [List.append_assoc]
    exact hds.stops _

/-! ## Header lines -/

theorem Header.fits_of_ofLine? {line : List Char} {h : Header} (e : Header.ofLine? line = some h) :
    h.Fits line := by
  simp only [Header.ofLine?, Option.bind_eq_bind, Option.bind_eq_some_iff] at e
  obtain ⟨⟨v, s⟩, hmark, t, hgap, ⟨path, first, last⟩, hcite, e⟩ := e
  cases e
  obtain ⟨indent, hi, el⟩ := eq_run_append isGap line
  obtain ⟨m, hm, em⟩ := marker?_eq_some hmark
  obtain ⟨gap, hg, hne, rfl, -⟩ := afterGap?_eq_some_iff.1 hgap
  have hcited := citation?_eq_some_iff.1 hcite
  cases hb : Header.afterBullet? (line.dropWhile isGap) with
  | none =>
    rw [hb, Option.getD_none] at em
    exact ⟨indent, m, gap, t, .indent hi, hm, hg, hne, hcited, by rw [el, em]; simp⟩
  | some r =>
    rw [hb, Option.getD_some] at em
    obtain ⟨b, g, hbul, hbg, hbne, eb⟩ := afterBullet?_eq_some hb
    exact ⟨_, m, gap, t, .bullet hi hbul hbg hbne, hm, hg, hne, hcited, by rw [el, eb, em]; simp⟩

theorem Header.ofLine?_of_fits {line : List Char} {h : Header} (e : h.Fits line) :
    Header.ofLine? line = some h := by
  obtain ⟨lead, m, gap, cited, hlead, hm, hg, hne, hcited, rfl⟩ := e
  obtain ⟨c, m', rfl, hc, hdig, hnogap⟩ := hm.exists_cons
  have hstop : Stops isGap (c :: m' ++ (gap ++ cited)) := stops_cons hnogap
  have hbody : (Header.afterBullet? ((lead ++ (c :: m' ++ (gap ++ cited))).dropWhile isGap)).getD
      ((lead ++ (c :: m' ++ (gap ++ cited))).dropWhile isGap) = c :: m' ++ (gap ++ cited) := by
    cases hlead with
    | indent hi =>
      rw [dropWhile_append_of_stops hi hstop, List.cons_append, afterBullet?_eq_none hc hdig]
      rfl
    | @bullet g b g' hi hb hg' hne' =>
      rw [List.append_assoc g b g', List.append_assoc g, dropWhile_append_of_stops hi (by
        rw [List.append_assoc]; exact hb.stops _), afterBullet?_append hb hg' hne' hstop]
      rfl
  have hgap : Header.afterGap? (gap ++ cited) = some cited := by
    refine afterGap?_eq_some_iff.2 ⟨gap, hg, hne, rfl, ?_⟩
    obtain ⟨hp, g, span, -, -, rfl⟩ := hcited
    rw [List.append_assoc]
    exact hp.stops _
  simp only [List.append_assoc] at hbody ⊢
  simp only [Header.ofLine?, hbody, marker?_append hm hg hne, hgap, Option.bind_eq_bind,
    Option.bind_some, citation?_eq_some_iff.2 hcited]
  rfl

/-- The lines that are read as header lines are those of the form. -/
theorem Header.ofLine?_eq_some_iff {line : List Char} {h : Header} :
    Header.ofLine? line = some h ↔ h.Fits line :=
  ⟨Header.fits_of_ofLine?, Header.ofLine?_of_fits⟩

theorem Header.ofLine?_eq_none_iff {line : List Char} :
    Header.ofLine? line = none ↔ ∀ h : Header, ¬ h.Fits line := by
  simp only [Option.eq_none_iff_forall_ne_some, ne_eq, Header.ofLine?_eq_some_iff]

end PerfReview.Response
