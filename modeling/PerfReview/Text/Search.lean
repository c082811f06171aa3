/-!
# Finding one text in another
-/

namespace PerfReview.Text

/-- The text that follows `head` at the front of `s`. -/
def dropHead? : List Char → List Char → Option (List Char)
  | [], s => some s
  | _ :: _, [] => none
  | c :: head, d :: s => if c = d then dropHead? head s else none

/-- The first text stands somewhere in the second. -/
def occursIn (needle : List Char) : List Char → Bool
  | [] => needle.isEmpty
  | c :: s => (dropHead? needle (c :: s)).isSome || occursIn needle s

/-- The text that follows `head` at the front of `s`. -/
def afterHead? (head s : String) : Option String :=
  (dropHead? head.toList s.toList).map String.ofList

def contains (s needle : String) : Bool := occursIn needle.toList s.toList

/-- Splits at the last occurrence of a separator: what stands before it and what after. -/
def splitLast? (separator : Char) (s : List Char) : Option (List Char × List Char) :=
  match s with
  | [] => none
  | c :: s =>
    match splitLast? separator s with
    | some (before, after) => some (c :: before, after)
    | none => if c = separator then some ([], s) else none

theorem dropHead?_eq_some_iff {head s rest : List Char} :
    dropHead? head s = some rest ↔ s = head ++ rest := by
  induction head generalizing s with
  | nil => simp [dropHead?]
  | cons c head ih =>
    cases s with
    | nil => simp [dropHead?]
    | cons d s =>
      by_cases h : c = d
      · simp [dropHead?, h, ih]
      · simp [dropHead?, h, Ne.symm h]

theorem splitLast?_eq_none_iff {separator : Char} {s : List Char} :
    splitLast? separator s = none ↔ separator ∉ s := by
  induction s with
  | nil => simp [splitLast?]
  | cons c s ih =>
    cases h : splitLast? separator s with
    | none =>
      have := ih.1 h
      by_cases hc : c = separator <;> simp [splitLast?, h, hc, this]
      exact fun e => hc e.symm
    | some p => simp [splitLast?, h]; intro _; exact Classical.not_not.1 (fun hn => by simp [ih.2 hn] at h)

theorem splitLast?_eq_some_iff {separator : Char} {s before after : List Char} :
    splitLast? separator s = some (before, after) ↔
      s = before ++ separator :: after ∧ separator ∉ after := by
  induction s generalizing before after with
  | nil => simp [splitLast?]
  | cons c s ih =>
    cases h : splitLast? separator s with
    | none =>
      have hn := splitLast?_eq_none_iff.1 h
      cases before with
      | nil =>
        by_cases hc : c = separator <;> simp [splitLast?, h, hc]
        intro e; exact e ▸ hn
      | cons b before =>
        by_cases hc : c = separator <;> simp [splitLast?, h, hc]
        all_goals
          intro _ e
          exact absurd (by simp [e]) hn
    | some p =>
      obtain ⟨b', a'⟩ := p
      obtain ⟨he, hn⟩ := ih.1 h
      cases before with
      | nil =>
        simp [splitLast?, h]
        intro _ e
        subst e
        simp [he]
      | cons b before =>
        simp only [splitLast?, h, Option.some.injEq, Prod.mk.injEq, List.cons.injEq,
          List.cons_append]
        constructor
        · rintro ⟨⟨rfl, rfl⟩, rfl⟩
          exact ⟨⟨rfl, he⟩, hn⟩
        · rintro ⟨⟨rfl, hs⟩, ha⟩
          have := ih.2 ⟨hs, ha⟩
          rw [h] at this
          simp only [Option.some.injEq, Prod.mk.injEq] at this
          exact ⟨⟨rfl, this.1⟩, this.2⟩

end PerfReview.Text
