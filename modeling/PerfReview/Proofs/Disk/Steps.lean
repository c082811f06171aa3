import PerfReview.Disk

/-!
# Following a path part by part

A path that leads somewhere does so by one step for each of its parts. `Step d fresh onLink here p
parts r` says all that the step of the part `p` can be, taken in the folder `here` with `parts` still
to come: staying there or going up, taking a link, entering a folder, or arriving at a file or a
fresh entry with no parts left.
-/

namespace PerfReview

namespace Node

theorem at?_nil (n : Node) : n.at? [] = some n := by cases n <;> rfl

theorem at?_append (n : Node) (ps qs : List String) :
    n.at? (ps ++ qs) = (n.at? ps).bind (·.at? qs) := by
  induction ps generalizing n with
  | nil => rw [List.nil_append, at?_nil, Option.bind_some]
  | cons p ps ih =>
    cases n with
    | file => rfl
    | link => rfl
    | folder entries =>
      simp only [List.cons_append, at?]
      cases Assoc.get? entries p with
      | none => rfl
      | some k => exact ih k

end Node

namespace Disk

variable {d : Disk} {fresh : Option Node} {here parts : List String} {p : String} {r : Place}
  {onLink : List String → List String → Except DiskFault Place}

theorem at?_concat {entries : List (String × Node)} (h : d.top.at? here = some (.folder entries))
    (p : String) : d.top.at? (here ++ [p]) = Assoc.get? entries p := by
  rw [Node.at?_append, h]
  cases hp : Assoc.get? entries p <;> simp [Node.at?, hp]

/-- A part that names an entry of a folder. -/
def NamesEntry (p : String) : Prop := p ≠ "." ∧ p ≠ ".." ∧ ¬ maxName < p.utf8ByteSize

/-- How the part `p` leads on from the folder `here`, so that the path leads to `r`. -/
inductive Step (d : Disk) (fresh : Option Node)
    (onLink : List String → List String → Except DiskFault Place) (here : List String) (p : String)
    (parts : List String) (r : Place) : Prop where
  | dot : p = "." → d.follow fresh onLink here parts = .ok r → Step d fresh onLink here p parts r
  | up : p = ".." → d.follow fresh onLink here.dropLast parts = .ok r →
      Step d fresh onLink here p parts r
  | link {target : String} : NamesEntry p → d.top.at? (here ++ [p]) = some (.link target) →
      onLink (if Path.isAbsolute target then [] else here) (Path.steps target ++ parts) = .ok r →
      Step d fresh onLink here p parts r
  | folder {entries : List (String × Node)} : NamesEntry p →
      d.top.at? (here ++ [p]) = some (.folder entries) →
      d.follow fresh onLink (here ++ [p]) parts = .ok r → Step d fresh onLink here p parts r
  | file {bytes : List UInt8} {mode : Nat} : NamesEntry p →
      d.top.at? (here ++ [p]) = some (.file bytes mode) → parts = [] →
      r = (here ++ [p], .file bytes mode) → Step d fresh onLink here p parts r
  | fresh {n : Node} : NamesEntry p → d.top.at? (here ++ [p]) = none → parts = [] →
      fresh = some n → r = (here ++ [p], n) → Step d fresh onLink here p parts r

theorem follow_nil_eq_ok_iff :
    d.follow fresh onLink here [] = .ok r ↔ ∃ n, d.top.at? here = some n ∧ r = (here, n) := by
  rw [follow]
  cases d.top.at? here with
  | none => simp
  | some n => simp [eq_comm]

theorem exists_folder_of_follow (e : d.follow fresh onLink here (p :: parts) = .ok r) :
    ∃ entries, d.top.at? here = some (.folder entries) := by
  unfold follow at e
  split at e
  · exact ⟨_, ‹_›⟩
  · cases e
  · cases e

theorem step_of_follow (e : d.follow fresh onLink here (p :: parts) = .ok r) :
    Step d fresh onLink here p parts r := by
  obtain ⟨entries, hhere⟩ := exists_folder_of_follow e
  simp only [follow, hhere, ← at?_concat hhere p] at e
  by_cases hdot : p = "."
  · exact .dot hdot (by rwa [if_pos hdot] at e)
  by_cases hup : p = ".."
  · exact .up hup (by rwa [if_neg hdot, if_pos hup] at e)
  by_cases hlong : maxName < p.utf8ByteSize
  · rw [if_neg hdot, if_neg hup, if_pos hlong] at e
    cases e
  rw [if_neg hdot, if_neg hup, if_neg hlong] at e
  have hp : NamesEntry p := ⟨hdot, hup, hlong⟩
  split at e
  · exact .link hp ‹_› e
  · split at e
    · exact .file hp ‹_› rfl (Except.ok.inj e).symm
    · cases e
  · exact .folder hp ‹_› e
  · split at e
    · exact .fresh hp ‹_› rfl rfl (Except.ok.inj e).symm
    · cases e

theorem Step.follow {entries : List (String × Node)}
    (hhere : d.top.at? here = some (.folder entries)) (h : Step d fresh onLink here p parts r) :
    d.follow fresh onLink here (p :: parts) = .ok r := by
  simp only [Disk.follow, hhere, ← at?_concat hhere p]
  cases h with
  | dot hdot e => rw [if_pos hdot, e]
  | up hup e => rw [if_neg (by rw [hup]; decide), if_pos hup, e]
  | link hp hk e =>
    rw [if_neg hp.1, if_neg hp.2.1, if_neg hp.2.2, hk]
    exact e
  | folder hp hk e => rw [if_neg hp.1, if_neg hp.2.1, if_neg hp.2.2, hk, e]
  | file hp hk hparts hr => rw [if_neg hp.1, if_neg hp.2.1, if_neg hp.2.2, hk, hparts, hr]
  | fresh hp hk hparts hfresh hr =>
    rw [if_neg hp.1, if_neg hp.2.1, if_neg hp.2.2, hk, hparts, hfresh, hr]

end Disk

end PerfReview
