import PerfReview.Text.Search

/-!
# Path patterns

Patterns over whole paths: a star stands for any run of characters, separators included, a question
mark for one character, and brackets for one character of a set. A pattern that starts with two
stars and a slash also matches where what follows the slash does. `Pattern.fits` says what fits a
pattern by trying every run; `Pattern.rests` goes through a pattern once, with all the rests of the
text that are still to be matched, and `Pattern.globs_eq_fits` says that both agree.
-/

namespace PerfReview

namespace Pattern

/-- A part of a pattern. -/
inductive Item where
  /-- Any run of characters. -/
  | run
  /-- Any one character. -/
  | one
  /-- One given character. -/
  | char (c : Char)
  /-- One character inside one of the inclusive ranges or, where `negated`, outside all of them. -/
  | set (negated : Bool) (ranges : List (Char × Char))
  deriving DecidableEq, Repr

namespace Item

/-- A character that a part other than a run may stand for. -/
def accepts : Item → Char → Bool
  | run, _ => false
  | one, _ => true
  | char d, c => c = d
  | set negated ranges, c => (ranges.any fun (lo, hi) => lo ≤ c && c ≤ hi) != negated

end Item

/-- The whole text fits the pattern. -/
def fits : List Item → List Char → Bool
  | [], s => s.isEmpty
  | .run :: p, s => fitsTail (fits p) s
  | i :: p, c :: s => i.accepts c && fits p s
  | _ :: _, [] => false
where
  /-- Some text at the end of `s`, `s` itself among them, fits. -/
  fitsTail (rest : List Char → Bool) : List Char → Bool
    | [] => rest []
    | c :: s => rest (c :: s) || fitsTail rest s

/-! ## Rests -/

/-- The texts at the end of a text, the longest first. -/
def suffixes : List Char → List (List Char)
  | [] => [[]]
  | c :: s => (c :: s) :: suffixes s

/-- What is left of a text when a part takes its first character. -/
def after? (i : Item) : List Char → Option (List Char)
  | c :: s => if i.accepts c then some s else none
  | [] => none

/-- What is left of texts when a pattern takes their starts. The texts are given with the longest
first, of which the others are ends, and so are those that are left. -/
def rests : List Item → List (List Char) → List (List Char)
  | [], ss => ss
  | _ :: _, [] => []
  | .run :: p, s :: _ => rests p (suffixes s)
  | i :: p, s :: ss => rests p ((s :: ss).filterMap (after? i))

/-- Each text is an end of those before it. -/
def IsChain (ss : List (List Char)) : Prop := ss.Pairwise fun a b => b <:+ a

theorem mem_suffixes {s t : List Char} : t ∈ suffixes s ↔ t <:+ s := by
  induction s with
  | nil => simp [suffixes]
  | cons c s ih => simp [suffixes, ih, List.suffix_cons_iff]

theorem isChain_suffixes (s : List Char) : IsChain (suffixes s) := by
  induction s with
  | nil => simp [suffixes, IsChain]
  | cons c s ih =>
    refine List.pairwise_cons.2 ⟨fun t ht => ?_, ih⟩
    exact (mem_suffixes.1 ht).trans (List.suffix_cons c s)

theorem after?_suffix {i : Item} {a b a' b' : List Char} (h : b <:+ a) (ha : after? i a = some a')
    (hb : after? i b = some b') : b' <:+ a' := by
  cases a with
  | nil => simp [after?] at ha
  | cons c a =>
    cases b with
    | nil => simp [after?] at hb
    | cons d b =>
      obtain ⟨-, rfl⟩ : i.accepts c = true ∧ a = a' := by simpa [after?] using ha
      obtain ⟨-, rfl⟩ : i.accepts d = true ∧ b = b' := by simpa [after?] using hb
      rcases List.suffix_cons_iff.1 h with h | h
      · simp_all
      · exact (List.suffix_cons d b).trans h

theorem IsChain.filterMap {ss : List (List Char)} (h : IsChain ss) (i : Item) :
    IsChain (ss.filterMap (after? i)) :=
  List.pairwise_filterMap.2 (h.imp fun hab _ ha _ hb => after?_suffix hab ha hb)

/-- A run may take any start of the text. -/
theorem fitsTail_iff (rest : List Char → Bool) (s : List Char) :
    fits.fitsTail rest s = true ↔ ∃ t, t <:+ s ∧ rest t = true := by
  induction s with
  | nil => simp [fits.fitsTail]
  | cons c s ih =>
    simp only [fits.fitsTail, Bool.or_eq_true, ih, List.suffix_cons_iff]
    grind

theorem fits_cons_iff {i : Item} (h : i ≠ .run) (p : List Item) (s : List Char) :
    fits (i :: p) s = true ↔ ∃ t, after? i s = some t ∧ fits p t = true := by
  cases s with
  | nil => cases i <;> simp_all [fits, after?]
  | cons c s => cases i <;> simp_all [fits, after?, and_assoc]

/-- Nothing can be left of the texts exactly if one of them fits. -/
theorem nil_mem_rests (p : List Item) {ss : List (List Char)} (h : IsChain ss) :
    [] ∈ rests p ss ↔ ∃ s ∈ ss, fits p s = true := by
  induction p generalizing ss with
  | nil => simp [rests, fits]
  | cons i p ih =>
    cases ss with
    | nil => simp [rests]
    | cons s ss =>
      by_cases hi : i = .run
      · subst hi
        simp only [rests, ih (isChain_suffixes s), mem_suffixes, fits, fitsTail_iff]
        have hs := (List.pairwise_cons.1 h).1
        constructor
        · rintro ⟨t, ht, hf⟩
          exact ⟨s, List.mem_cons_self, t, ht, hf⟩
        · rintro ⟨u, hu, t, ht, hf⟩
          rcases List.mem_cons.1 hu with rfl | hu
          · exact ⟨t, ht, hf⟩
          · exact ⟨t, ht.trans (hs u hu), hf⟩
      · have hr : rests (i :: p) (s :: ss) = rests p ((s :: ss).filterMap (after? i)) := by
          cases i <;> simp_all [rests]
        simp only [hr, ih (h.filterMap i), List.mem_filterMap, fits_cons_iff hi]
        grind

/-! ## Sets -/

/-- The content of brackets cut at the hyphens that make ranges. A hyphen makes a range when a
character stands before it and after it, and the two ranges on both sides of a piece do not share
their ends. `piece` is the piece under construction, reversed, and `wait` the number of characters
that must still come before a hyphen can make a range. -/
def setPieces (piece : List Char) (wait : Nat) : List Char → List (List Char)
  | [] => [piece.reverse]
  | c :: s =>
    if c = '-' && wait = 0 && !s.isEmpty then piece.reverse :: setPieces [] 2 s
    else setPieces (c :: piece) (wait - 1) s

/-- Joins two pieces where the range between them is empty: its two ends are dropped. -/
def joinEmpty (piece : List Char) : List (List Char) → List (List Char)
  | [] => [piece]
  | next :: rest =>
    match piece.getLast?, next with
    | some lo, hi :: after =>
      if hi < lo then (piece.dropLast ++ after) :: rest else piece :: next :: rest
    | _, _ => piece :: next :: rest

def dropEmpty (pieces : List (List Char)) : List (List Char) := pieces.foldr joinEmpty []

/-- The ranges of pieces, `before` being the last character of the piece before. -/
def pieceRanges : Option Char → List (List Char) → List (Char × Char)
  | _, [] => []
  | before, piece :: rest =>
    let between :=
      match before, piece with
      | some lo, hi :: _ => [(lo, hi)]
      | _, _ => []
    let gap := if piece.isEmpty && !rest.isEmpty then [('-', '-')] else []
    between ++ piece.map (fun c => (c, c)) ++ gap ++ pieceRanges piece.getLast? rest

def setOf (content : List Char) : Item :=
  let wait := match content with
    | '!' :: _ => 2
    | _ => 1
  match dropEmpty (setPieces [] wait content) with
  | ('!' :: piece) :: rest => .set true (pieceRanges none (piece :: rest))
  | pieces => .set false (pieceRanges none pieces)

/-- The content of brackets and what follows them, where they are closed. A closing bracket that
comes first, after an exclamation mark if there is one, belongs to the content. -/
def bracket? (s : List Char) : Option (List Char × List Char) :=
  let (head, s) := match s with
    | '!' :: ']' :: s => (['!', ']'], s)
    | '!' :: s => (['!'], s)
    | ']' :: s => ([']'], s)
    | s => ([], s)
  match s.span (· ≠ ']') with
  | (content, _ :: rest) => some (head ++ content, rest)
  | (_, []) => none

/-- The parts of a pattern's text. The fuel is the length of the text. -/
def itemsOf : Nat → List Char → List Item
  | 0, _ => []
  | _ + 1, [] => []
  | fuel + 1, '*' :: s => .run :: itemsOf fuel s
  | fuel + 1, '?' :: s => .one :: itemsOf fuel s
  | fuel + 1, '[' :: s =>
    match bracket? s with
    | some (content, rest) => setOf content :: itemsOf fuel rest
    | none => .char '[' :: itemsOf fuel s
  | fuel + 1, c :: s => .char c :: itemsOf fuel s

def items (pattern : List Char) : List Item := itemsOf pattern.length pattern

/-- The path fits the pattern as it stands. -/
def globs (pattern path : List Char) : Bool := (rests (items pattern) [path]).contains []

theorem globs_eq_fits (pattern path : List Char) :
    globs pattern path = fits (items pattern) path := by
  have h : IsChain [path] := List.pairwise_singleton _ _
  rw [Bool.eq_iff_iff, globs, List.contains_iff_mem, nil_mem_rests _ h]
  simp

def matchesChars (pattern path : List Char) : Bool :=
  globs pattern path ||
    match pattern with
    | '*' :: '*' :: '/' :: rest => globs rest path
    | _ => false

end Pattern

def matchesPattern (pattern path : String) : Bool := Pattern.matchesChars pattern.toList path.toList

def matchesAny (patterns : List String) (path : String) : Bool :=
  patterns.any (matchesPattern · path)

end PerfReview
