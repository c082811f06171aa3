import PerfReview.Proofs.Text.Ascii
import PerfReview.Standard

/-!
# Written maps

A map is written in visible ASCII and line feeds: the standard library writes a text that has anything
else with escapes. So a written map has bytes, and the text that is read from them is the one written.
That this text reads back as the map is `ReadsBack`, up to the order of the entries.
-/

namespace PerfReview.Yaml

/-- A name and a text as an entry of a map. -/
def textEntry (e : String × String) : Value × Item := (.text e.1, .plain (.text e.2))

/-- The document is a map with one entry, the map of the given entries in some order. -/
def Document.Holds (d : Document) (name : String) (entries : List (String × String)) : Prop :=
  ∃ item, ∃ entries' : List (String × String), entries'.Perm entries ∧
    d.entries? d.root = some [(.text name, item)] ∧ d.entries? item = some (entries'.map textEntry)

/-- A map that is written is read as itself. -/
def ReadsBack [Library] (name : String) (entries : List (String × String)) : Prop :=
  ∃ d, Library.read (Library.write name entries) = .ok d ∧ d.Holds name entries

namespace Printer

/-! ## Visible ASCII -/

/-- Visible ASCII and line feeds. -/
def IsVisible (s : List Char) : Prop := ∀ c ∈ s, isPlain c = true

instance (s : List Char) : Decidable (IsVisible s) :=
  decidable_of_iff (s.all isPlain = true) List.all_eq_true

@[simp] theorem isVisible_nil : IsVisible [] := nofun

@[simp] theorem isVisible_cons {c : Char} {s : List Char} :
    IsVisible (c :: s) ↔ isPlain c = true ∧ IsVisible s := List.forall_mem_cons

@[simp] theorem isVisible_append {s t : List Char} :
    IsVisible (s ++ t) ↔ IsVisible s ∧ IsVisible t := List.forall_mem_append

theorem IsVisible.mono {s t : List Char} (h : IsVisible t) (hst : s ⊆ t) : IsVisible s :=
  fun c hc => h c (hst hc)

theorem IsVisible.isAscii {s : List Char} (h : IsVisible s) : Text.IsAscii s := by
  intro c hc
  have hc := h c hc
  simp only [isPlain, Bool.or_eq_true, Bool.and_eq_true, decide_eq_true_eq] at hc
  obtain rfl | ⟨-, hle⟩ := hc
  · decide
  · exact Nat.lt_of_le_of_lt (Char.le_def.1 hle) (by decide)

theorem IsVisible.notMem_return {s : List Char} (h : IsVisible s) : '\r' ∉ s := fun hr => by
  cases h _ hr

theorem newLine_isVisible (indent : Nat) : IsVisible (newLine indent).1 := by
  refine isVisible_cons.2 ⟨by decide, fun c hc => ?_⟩
  rw [List.eq_of_mem_replicate hc]
  decide

/-! ## Runs -/

theorem flatten_runs (kind : Char → Nat) (s : List Char) : (runs kind s).flatten = s := by
  induction s with
  | nil => rfl
  | cons c s ih =>
    unfold runs
    split
    · rename_i d r rs hruns
      rw [hruns] at ih
      split <;> rw [← ih] <;> rfl
    · rw [List.flatten_cons, ih, List.singleton_append]

theorem plainRuns_isVisible {mayBreak : Bool} {indent column : Nat} {rs : List (List Char)}
    (h : IsVisible rs.flatten) : IsVisible (plainRuns mayBreak indent column rs).1 := by
  induction rs generalizing column with
  | nil => exact isVisible_nil
  | cons run rest ih =>
    obtain ⟨hrun, hrest⟩ := isVisible_append.1 (List.flatten_cons ▸ h)
    simp only [plainRuns]
    split
    · exact isVisible_append.2 ⟨newLine_isVisible indent, ih hrest⟩
    · exact isVisible_append.2 ⟨hrun, ih hrest⟩

theorem doubled_isVisible {run : List Char} (h : IsVisible run) :
    IsVisible (run.flatMap fun c => if c = '\x27' then ['\x27', '\x27'] else [c]) := by
  intro c hc
  obtain ⟨b, hb, hc⟩ := List.mem_flatMap.1 hc
  split at hc
  · obtain rfl : c = '\x27' := by simpa using hc
    decide
  · obtain rfl : c = b := by simpa using hc
    exact h c hb

theorem singleRuns_isVisible {mayBreak isFirst : Bool} {indent column : Nat}
    {rs : List (List Char)} (h : IsVisible rs.flatten) :
    IsVisible (singleRuns mayBreak indent isFirst column rs).1 := by
  induction rs generalizing column isFirst with
  | nil => exact isVisible_nil
  | cons run rest ih =>
    obtain ⟨hrun, hrest⟩ := isVisible_append.1 (List.flatten_cons ▸ h)
    simp only [singleRuns]
    split
    · have hfeed : IsVisible (if run.head? = some '\n' then ['\n'] else []) := by
        split
        · simp [isPlain]
        · exact isVisible_nil
      simp only [isVisible_append]
      exact ⟨⟨⟨hfeed, hrun.mono (List.dropLast_subset _)⟩, newLine_isVisible indent⟩, ih hrest⟩
    · split
      · exact isVisible_append.2 ⟨newLine_isVisible indent, ih hrest⟩
      · exact isVisible_append.2 ⟨doubled_isVisible hrun, ih hrest⟩

/-! ## Escapes -/

theorem capitalHex_isVisible (count n : Nat) : IsVisible (capitalHex count n) := by
  have hdigit : ∀ k < 16, isPlain (Nat.digitChar k).toUpper = true := by decide
  unfold capitalHex
  induction count generalizing n with
  | zero => exact isVisible_nil
  | succ count ih =>
    rw [Text.hexPadded, List.map_append, isVisible_append]
    exact ⟨ih (n / 16), isVisible_cons.2 ⟨hdigit _ (Nat.mod_lt _ (by decide)), isVisible_nil⟩⟩

theorem escape?_isVisible {c : Char} {e : List Char} (h : escape? c = some e) : IsVisible e := by
  have hletters : ∀ p ∈ letters, isPlain p.2 = true := by decide
  have hmark : ∀ x, isPlain x = true → ∀ count n,
      IsVisible ('\\' :: x :: capitalHex count n) := fun x hx count n =>
    isVisible_cons.2 ⟨by decide, isVisible_cons.2 ⟨hx, capitalHex_isVisible count n⟩⟩
  unfold escape? at h
  dsimp only at h
  split at h
  · rename_i l hl
    cases h
    obtain ⟨before, after, hlist, -⟩ := List.lookup_eq_some_iff.1 hl
    have hl : isPlain l = true :=
      hletters (c, l) (hlist ▸ List.mem_append_right before List.mem_cons_self)
    exact isVisible_cons.2 ⟨by decide, isVisible_cons.2 ⟨hl, isVisible_nil⟩⟩
  · split at h
    · cases h
    · split at h
      · cases h
        exact hmark 'x' (by decide) _ _
      · split at h
        · cases h
          exact hmark 'u' (by decide) _ _
        · cases h
          exact hmark 'U' (by decide) _ _

theorem isPlain_of_escape? {c : Char} (h : escape? c = none) : isPlain c = true := by
  unfold escape? at h
  dsimp only at h
  split at h
  · cases h
  · split at h
    · rename_i hc
      rw [isPlain, hc, Bool.or_true]
    · split at h
      · cases h
      · split at h <;> cases h

theorem doubleChars_isVisible (mayBreak isFirst fresh : Bool) (indent column : Nat)
    (s : List Char) : IsVisible (doubleChars mayBreak indent isFirst fresh column s).1 := by
  have hslash : isPlain '\\' = true := by decide
  have hline := newLine_isVisible indent
  induction s generalizing column isFirst fresh with
  | nil => exact isVisible_nil
  | cons c s ih =>
    simp only [doubleChars]
    split
    · rename_i e he
      have hescape := escape?_isVisible he
      split
      · split <;> simp [hescape, hslash, hline, ih]
      · simp [hescape, ih]
    · rename_i he
      have hc := isPlain_of_escape? he
      split
      · split <;> simp [hc, hslash, hline, ih]
      · simp [hc, ih]

/-! ## Documents -/

theorem scalar_isVisible (isKey : Bool) (indent column : Nat) (s : List Char) :
    IsVisible (scalar isKey indent column s).1 := by
  have hvisible : s.all isPlain = true → IsVisible (runs kind s).flatten := fun h => by
    rw [flatten_runs]
    exact List.all_eq_true.1 h
  unfold scalar
  split
  · rename_i hplain
    simp only [standsPlain, Bool.and_eq_true] at hplain
    exact plainRuns_isVisible (hvisible hplain.1.1.1.1.2)
  · split
    · rename_i hsingle
      simp only [standsSingle, Bool.and_eq_true] at hsingle
      have hmark : isPlain '\x27' = true := by decide
      simp [hmark, singleRuns_isVisible (hvisible hsingle.1.1)]
    · have hmark : isPlain '\x22' = true := by decide
      simp [hmark, doubleChars_isVisible]

theorem entry_isVisible (key value : String) : IsVisible (entry key value) := by
  unfold entry
  dsimp only
  split
  · simp [scalar_isVisible, isPlain]
  · simp [scalar_isVisible, isPlain]

/-- A map is written in visible ASCII. -/
theorem document_of_sorted (name : String) {entries : List (String × String)}
    (h : entries.Pairwise fun a b => decide (a.1 ≤ b.1) = true) : document name entries =
      String.ofList (name.toList ++ ':' :: '\n' :: entries.flatMap fun (k, v) => entry k v) := by
  rw [document, List.mergeSort_of_pairwise h]

theorem document_isVisible {name : String} (h : IsVisible name.toList)
    (entries : List (String × String)) : IsVisible (document name entries).toList := by
  unfold document
  rw [String.toList_ofList]
  have hentries : IsVisible ((entries.mergeSort fun a b => a.1 ≤ b.1).flatMap
      fun e => entry e.1 e.2) := by
    intro c hc
    obtain ⟨e, -, hc⟩ := List.mem_flatMap.1 hc
    exact entry_isVisible e.1 e.2 c hc
  simpa [h, isPlain] using hentries

end Printer

/-- The library writes maps in visible ASCII, under names that are. -/
class Library.WritesVisibly [Library] : Prop where
  visible {name : String} (entries : List (String × String)) : Printer.IsVisible name.toList →
    Printer.IsVisible (Library.write name entries).toList

instance : Library.WritesVisibly := ⟨fun entries h => Printer.document_isVisible h entries⟩

end PerfReview.Yaml
