import PerfReview.Proofs.Response.Classification

/-!
# Readable answers

An answer is read to its end exactly if no header line of it cites a line by more digits than a
number may have.
-/

namespace PerfReview.Response

open Text Number

/-- The line numbers of a header are short enough to be read. -/
def Header.Short (h : Header) : Prop := h.first.length ≤ maxDigits ∧ h.last.length ≤ maxDigits

/-- The line numbers in all header lines of a text are short enough to be read. -/
def Readable (text : String) : Prop :=
  ∀ l ∈ splitFeeds (foldReturns text.toList), ∀ h : Header, h.Fits l → h.Short

theorem Header.Fits.digits {h : Header} {l : Line} (hl : h.Fits l) :
    Digits h.first ∧ Digits h.last := by
  obtain ⟨-, -, -, cited, -, -, -, -, ⟨-, gap, span, -, ⟨hf, hl, -⟩, -⟩, -⟩ := hl
  exact ⟨hf, hl⟩

/-- A line fits one header at most. -/
theorem Header.Fits.eq {h h' : Header} {l : Line} (hl : h.Fits l) (hl' : h'.Fits l) : h = h' := by
  rw [← Header.ofLine?_eq_some_iff] at hl hl'
  exact Option.some.inj (hl.symm.trans hl')

theorem Record.judge_isOk_iff (ix : Index) {r : Record} {l : Line} (h : r.header.Fits l) :
    (∃ v, r.judge ix = .ok v) ↔ r.header.Short := by
  obtain ⟨hf, hl⟩ := h.digits
  obtain ⟨n, hn⟩ := exists_numeral hf.2
  obtain ⟨m, hm⟩ := exists_numeral hl.2
  simp only [Record.judge_eq_ok_iff, readDigits_eq_ok_iff, Header.Short]
  constructor
  · rintro ⟨v, first, last, h₁, h₂, -⟩
    exact ⟨h₁.2, h₂.2⟩
  · rintro ⟨h₁, h₂⟩
    exact ⟨_, n, m, ⟨hn, h₁⟩, ⟨hm, h₂⟩, rfl⟩

theorem Passages.fault_eq_none_iff {ix : Index} {ls : List Line} {rs : List Record}
    (h : Passages ls rs) :
    (ofRecords ix rs).fault = none ↔ ∀ l ∈ ls, ∀ hd : Header, hd.Fits l → hd.Short := by
  induction h with
  | nil => simp [ofRecords]
  | @cons line r rest rs hfits hbelow hrest ih =>
    have hsplit : (∀ l ∈ line :: (r.lines ++ rest), ∀ hd : Header, hd.Fits l → hd.Short) ↔
        r.header.Short ∧ ∀ l ∈ rest, ∀ hd : Header, hd.Fits l → hd.Short := by
      constructor
      · exact fun h => ⟨h line (by simp) _ hfits, fun l hl => h l (by simp [hl])⟩
      · rintro ⟨hs, hr⟩ l hl hd hfit
        rcases List.mem_cons.1 hl with rfl | hl
        · exact hfits.eq hfit ▸ hs
        · rcases List.mem_append.1 hl with hl | hl
          · exact absurd hfit (hbelow l hl hd)
          · exact hr l hl hd hfit
    rw [hsplit, ← ih, ← Record.judge_isOk_iff ix hfits, ofRecords]
    cases hj : r.judge ix with
    | error f => simp
    | ok v => simp

/-- What stops the reading of an answer is a line number that is too long. -/
theorem read_fault_eq_none_iff {ix : Index} {text : String} :
    (read ix text).fault = none ↔ Readable text := by
  obtain ⟨rest, hls, hpre, hrest⟩ := Outline.passages (splitFeeds (foldReturns text.toList))
  rw [read, records, hrest.fault_eq_none_iff, Readable]
  constructor
  · intro h l hl hd hfit
    rw [hls] at hl
    rcases List.mem_append.1 hl with hl | hl
    · exact absurd hfit (hpre l hl hd)
    · exact h l hl hd hfit
  · intro h l hl
    exact h l (by rw [hls]; exact List.mem_append_right _ hl)

end PerfReview.Response
