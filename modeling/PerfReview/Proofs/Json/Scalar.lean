import PerfReview.Json.Printer
import PerfReview.Json.Reader
import PerfReview.Proofs.Number.Decimal
import PerfReview.Proofs.Number.Numeral
import PerfReview.Proofs.Text.Cut

/-!
# Reading scalars

What the reader makes of the text of a number, a word or a string, whatever follows it. A number
ends where no character follows that could belong to it; `Ends` says so.
-/

namespace PerfReview.Json

namespace Reader

open Number (Digits WholePart Exponent Decimal)
open Text (Stops stops_nil stops_cons span_append_of_stops)

/-- The characters that a number may go on with. -/
def goesOn (c : Char) : Bool := isAsciiDigit c || c = '.' || c = 'e' || c = 'E'

/-- What follows does not belong to a number before it. -/
def Ends (rest : List Char) : Prop := Stops goesOn rest

theorem Ends.stops {rest : List Char} (h : Ends rest) : Stops isAsciiDigit rest := by
  intro c hc
  have := h c hc
  simp only [goesOn, Bool.or_eq_false_iff] at this
  exact this.1.1.1

theorem isAsciiDigit_of_isDigit {c : Char} (h : c.isDigit = true) : isAsciiDigit c = true := h

theorem not_isAsciiDigit : isAsciiDigit '.' = false ∧ isAsciiDigit 'e' = false := by decide

/-! ## Numbers -/

variable {s ds rest : List Char}

theorem span_digits (hd : Digits ds) (hr : Stops isAsciiDigit rest) :
    (ds ++ rest).span isAsciiDigit = (ds, rest) :=
  span_append_of_stops (fun d h => isAsciiDigit_of_isDigit (hd d h)) hr

theorem wholePart_eq (h : WholePart s) (hr : Stops isAsciiDigit rest) :
    wholePart (s ++ rest) = some (s, rest) := by
  cases h with
  | zero => rfl
  | digits hc h0 hd =>
    rw [List.cons_append, wholePart, if_pos (isAsciiDigit_of_isDigit hc), span_digits hd hr]
    rintro rfl
    exact h0 rfl

theorem fractionPart_eq (hn : ds ≠ []) (hd : Digits ds) (hr : Stops isAsciiDigit rest) :
    fractionPart ('.' :: (ds ++ rest)) = some (ds, rest) := by
  rw [fractionPart, span_digits hd hr]
  simp [hn]

theorem fractionPart_eq_none (h : rest.head? ≠ some '.') : fractionPart rest = none := by
  unfold fractionPart
  split
  · exact absurd rfl h
  · rfl

theorem exponentPart_eq_none (h : Ends rest) : exponentPart rest = none := by
  cases rest with
  | nil => rfl
  | cons c rest =>
    have hc := h c rfl
    simp only [goesOn, Bool.or_eq_false_iff, decide_eq_false_iff_not] at hc
    simp [exponentPart, hc.1.2, hc.2]

theorem exists_exponentPart_eq (h : Exponent s) :
    ∃ e, ∀ rest, Stops isAsciiDigit rest → exponentPart (s ++ rest) = some (e, rest) := by
  cases h with
  | @signed sign ds hs hn hd =>
    let n := Number.ofDigits ((ds.dropWhile (· = '0')).take 10 |>.map (·.toNat - 48))
    have hne : ds.isEmpty = false := by simpa using hn
    rcases hs with rfl | rfl
    · refine ⟨n, fun rest hr => ?_⟩
      simp only [List.cons_append, exponentPart, Number.takeSign, span_digits hd hr, hne]
      rfl
    · refine ⟨-n, fun rest hr => ?_⟩
      simp only [List.cons_append, exponentPart, Number.takeSign, span_digits hd hr, hne]
      rfl

theorem head?_ne_of_exponent (h : Exponent s) (rest : List Char) :
    (s ++ rest).head? ≠ some '.' := by
  cases h
  rintro ⟨⟩

theorem exists_numberBody_eq (h : Decimal s) (negative : Bool) :
    ∃ x, ∀ rest, Ends rest → numberBody negative (s ++ rest) = .ok (.float x, rest) := by
  cases h with
  | @fraction whole ds hw hn hd =>
    refine ⟨.ofDecimal negative (Number.ofDigits ((whole ++ ds).map (·.toNat - 48)))
      (0 - ds.length), fun rest hr => ?_⟩
    have hwhole := wholePart_eq hw (stops_cons not_isAsciiDigit.1 (s := ds ++ rest))
    have hfraction := fractionPart_eq hn hd hr.stops
    simp only [numberBody, List.append_assoc, List.cons_append, hwhole, hfraction,
      exponentPart_eq_none hr, Option.getD_none]
  | @exponent whole ex hw he =>
    obtain ⟨e, hexp⟩ := exists_exponentPart_eq he
    refine ⟨.ofDecimal negative (Number.ofDigits (whole.map (·.toNat - 48))) e, fun rest hr => ?_⟩
    have hwhole : wholePart (whole ++ (ex ++ rest)) = some (whole, ex ++ rest) :=
      wholePart_eq hw (by cases he; exact stops_cons not_isAsciiDigit.2)
    simp only [numberBody, List.append_assoc, hwhole,
      fractionPart_eq_none (head?_ne_of_exponent he rest), hexp rest hr.stops]
  | @both whole ds ex hw hn hd he =>
    obtain ⟨e, hexp⟩ := exists_exponentPart_eq he
    refine ⟨.ofDecimal negative (Number.ofDigits ((whole ++ ds).map (·.toNat - 48)))
      (e - ds.length), fun rest hr => ?_⟩
    have hwhole := wholePart_eq hw (stops_cons not_isAsciiDigit.1 (s := ds ++ (ex ++ rest)))
    have hfraction : fractionPart ('.' :: (ds ++ (ex ++ rest))) = some (ds, ex ++ rest) :=
      fractionPart_eq hn hd (by cases he; exact stops_cons not_isAsciiDigit.2)
    simp only [numberBody, List.append_assoc, List.cons_append, hwhole, hfraction,
      hexp rest hr.stops, Option.getD_some]

/-- The digits of an integer that is not too long are read as that integer. -/
theorem numberBody_toDigits {n : Nat} (h : n < 10 ^ Number.maxDigits) (negative : Bool)
    (hr : Ends rest) :
    numberBody negative (Nat.toDigits 10 n ++ rest) =
      .ok (.int (if negative then -(n : Int) else n), rest) := by
  have hwhole := wholePart_eq (Number.wholePart_toDigits n) hr.stops
  have hpoint : rest.head? ≠ some '.' := fun e => by
    have := hr '.' e
    cases this
  have hlength : (Nat.toDigits 10 n).length ≤ Number.maxDigits :=
    (Nat.length_toDigits_le_iff (by decide) (by decide)).2 h
  have hvalue : Number.ofDigits ((Nat.toDigits 10 n).map (·.toNat - 48)) = n := by
    rw [Number.ofDigits_eq_foldl, Number.foldl_toDigits]
  simp only [numberBody, hwhole, fractionPart_eq_none hpoint, exponentPart_eq_none hr,
    if_neg (Nat.not_lt.2 hlength), hvalue]

/-! ## Signs -/

theorem scalar_digit {c : Char} (hc : c.isDigit = true) (s : List Char) :
    scalar (c :: s) = numberBody false (c :: s) := by
  unfold scalar
  split
  case h_8 => rfl
  all_goals
    rename_i e
    cases e
    exact absurd hc (by decide)

theorem scalar_hyphen {c : Char} (hc : c.isDigit = true) (s : List Char) :
    scalar ('-' :: c :: s) = numberBody true (c :: s) := by
  unfold scalar
  split
  case h_6 e =>
    cases e
    exact absurd hc (by decide)
  case h_7 e =>
    cases e
    rfl
  case h_8 h => exact absurd rfl (h (c :: s))
  all_goals
    rename_i e
    cases e

theorem exists_cons_of_wholePart (h : WholePart s) : ∃ c t, s = c :: t ∧ c.isDigit = true := by
  cases h with
  | zero => exact ⟨_, _, rfl, rfl⟩
  | digits hc => exact ⟨_, _, rfl, hc⟩

theorem exists_cons_of_decimal (h : Decimal s) : ∃ c t, s = c :: t ∧ c.isDigit = true := by
  cases h with
  | fraction hw | exponent hw =>
    obtain ⟨c, t, rfl, hc⟩ := exists_cons_of_wholePart hw
    exact ⟨c, _, rfl, hc⟩
  | both hw =>
    obtain ⟨c, t, rfl, hc⟩ := exists_cons_of_wholePart hw
    exact ⟨c, _, rfl, hc⟩

theorem scalar_signed (hs : ∃ c t, s = c :: t ∧ c.isDigit = true) (negative : Bool) :
    scalar (Number.Layout.signed negative s ++ rest) = numberBody negative (s ++ rest) := by
  obtain ⟨c, t, rfl, hc⟩ := hs
  cases negative with
  | false => exact scalar_digit hc _
  | true => exact scalar_hyphen hc _

/-! ## The texts of numbers -/

/-- The characters that stand at no start of a scalar but a string: white space, and the marks that
open a string or a container or close a list. -/
def marks : List Char := [' ', '\t', '\n', '\r', '\x22', '[', ']', '\x7b']

theorem notMem_marks_of_isDigit {c : Char} (h : c.isDigit = true) : c ∉ marks := by
  have hmarks : marks.all (!·.isDigit) = true := rfl
  intro hm
  simpa [h] using List.all_eq_true.1 hmarks c hm

theorem not_isSpace_of_notMem_marks {c : Char} (h : c ∉ marks) : isSpace c = false := by
  simp only [marks, List.mem_cons, not_or] at h
  simp [isSpace, h]

theorem exists_cons_signed (hs : ∃ c t, s = c :: t ∧ c.isDigit = true) (negative : Bool) :
    ∃ c t, Number.Layout.signed negative s = c :: t ∧ c ∉ marks := by
  obtain ⟨c, t, rfl, hc⟩ := hs
  cases negative with
  | false => exact ⟨c, t, rfl, notMem_marks_of_isDigit hc⟩
  | true => exact ⟨'-', c :: t, rfl, by decide⟩

theorem exists_cons_int (n : Int) : ∃ c t, (Number.intText n).toList = c :: t ∧ c ∉ marks := by
  rw [Number.intText, String.toList_ofList]
  exact exists_cons_signed (exists_cons_of_wholePart (Number.wholePart_toDigits _)) _

theorem exists_cons_float (x : Number.Binary64) :
    ∃ c t, (Number.Layout.json.text x).toList = c :: t ∧ c ∉ marks := by
  unfold Number.Layout.text
  simp only [String.toList_ofList]
  match x with
  | .nan => exact ⟨_, _, rfl, by decide⟩
  | .infinite true => exact ⟨_, _, rfl, by decide⟩
  | .infinite false => exact ⟨_, _, rfl, by decide⟩
  | .finite negative 0 e => exact exists_cons_signed ⟨_, _, rfl, rfl⟩ negative
  | .finite negative (m + 1) e =>
    have hdecimal := Number.Layout.decimal_magnitude .json m.succ_ne_zero e (by decide)
    exact exists_cons_signed (exists_cons_of_decimal hdecimal) negative

/-- What the text of a floating-point number is read as. -/
def reread (x : Number.Binary64) : Json :=
  match scalar (Number.Layout.json.text x).toList with
  | .ok (v, _) => v
  | .error _ => .null

theorem exists_scalar_float (x : Number.Binary64) : ∃ y, ∀ rest, Ends rest →
    scalar ((Number.Layout.json.text x).toList ++ rest) = .ok (.float y, rest) := by
  unfold Number.Layout.text
  simp only [String.toList_ofList]
  match x with
  | .nan => exact ⟨.nan, fun _ _ => rfl⟩
  | .infinite true => exact ⟨.infinite true, fun _ _ => rfl⟩
  | .infinite false => exact ⟨.infinite false, fun _ _ => rfl⟩
  | .finite negative 0 e =>
    have hzero : Decimal ['0', '.', '0'] :=
      .fraction .zero (List.cons_ne_nil _ _) (List.forall_mem_cons.2 ⟨rfl, List.forall_mem_nil _⟩)
    obtain ⟨y, hy⟩ := exists_numberBody_eq hzero negative
    exact ⟨y, fun rest hr => (scalar_signed ⟨_, _, rfl, rfl⟩ negative).trans (hy rest hr)⟩
  | .finite negative (m + 1) e =>
    have hdecimal := Number.Layout.decimal_magnitude .json m.succ_ne_zero e (by decide)
    obtain ⟨y, hy⟩ := exists_numberBody_eq hdecimal negative
    exact ⟨y, fun rest hr =>
      (scalar_signed (exists_cons_of_decimal hdecimal) negative).trans (hy rest hr)⟩

theorem scalar_float (x : Number.Binary64) (hr : Ends rest) :
    scalar ((Number.Layout.json.text x).toList ++ rest) = .ok (reread x, rest) := by
  obtain ⟨y, hy⟩ := exists_scalar_float x
  have hempty := hy [] (stops_nil goesOn)
  rw [List.append_nil] at hempty
  rw [hy rest hr, reread, hempty]

theorem scalar_int {n : Int} (h : n.natAbs < 10 ^ Number.maxDigits) (hr : Ends rest) :
    scalar ((Number.intText n).toList ++ rest) = .ok (.int n, rest) := by
  have hstart := exists_cons_of_wholePart (Number.wholePart_toDigits n.natAbs)
  rw [Number.intText, String.toList_ofList, scalar_signed hstart, numberBody_toDigits h _ hr]
  congr 3
  by_cases hn : n < 0
  · simp only [hn, decide_true, if_true]
    omega
  · simp only [hn, decide_false, Bool.false_eq_true, if_false]
    omega

/-! ## Strings -/

theorem unit?_hexPadded : ∀ n < 0x20,
    Text.hexPadded 4 n = ['0', '0', Nat.digitChar (n / 16), Nat.digitChar (n % 16)] ∧
      unit? '0' '0' (Nat.digitChar (n / 16)) (Nat.digitChar (n % 16)) = some n ∧
      isHighSurrogate n = false ∧ Text.ofCode n = Char.ofNat n := by
  decide

theorem stringBody_escaped (c : Char) (done t : List Char) :
    stringBody none done (Printer.escaped c ++ t) = stringBody none (c :: done) t := by
  unfold Printer.escaped
  split_ifs with hquote hslash hfeed hreturn htab hback hform hcontrol
  case pos => subst hquote; rfl
  case pos => subst hslash; rfl
  case pos => subst hfeed; rfl
  case pos => subst hreturn; rfl
  case pos => subst htab; rfl
  case pos => subst hback; rfl
  case pos => subst hform; rfl
  case pos =>
    obtain ⟨hhex, hunit, hhigh, hcode⟩ := unit?_hexPadded c.toNat hcontrol
    rw [Char.ofNat_toNat] at hcode
    rw [hhex]
    simp only [List.cons_append, List.nil_append, stringBody, hunit, Option.bind_none, hhigh,
      Bool.false_eq_true, if_false, hcode]
    rfl
  case neg =>
    rw [List.singleton_append, stringBody]
    · rw [if_neg hcontrol]
      rfl
    all_goals simp [hquote, hslash]

theorem stringBody_flatMap (s done t : List Char) :
    stringBody none done (s.flatMap Printer.escaped ++ '\x22' :: t) =
      .ok (String.ofList (done.reverse ++ s), t) := by
  induction s generalizing done with
  | nil => simp [stringBody, settle]
  | cons c s ih =>
    rw [List.flatMap_cons, List.append_assoc, stringBody_escaped, ih]
    simp

end Reader

end PerfReview.Json
