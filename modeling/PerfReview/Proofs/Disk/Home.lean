import PerfReview.Proofs.Path
import PerfReview.Scan

/-!
# Paths from home folders

A path in which a home folder has been filled in stays as it is when it is looked at again, if home
folders have absolute paths: a scan of it finds what a scan of the path as it was written finds.
-/

namespace PerfReview

namespace Site

variable {s : Site} {p q : String}

def Homed (s : Site) : Prop := ∀ user home, s.homeOf user = .ok home → Path.isAbsolute home = true

theorem homed_of_forall (h : Path.isAbsolute s.home = true)
    (hs : ∀ u ∈ s.homes, Path.isAbsolute u.2 = true) : s.Homed := by
  intro user home hhome
  unfold homeOf at hhome
  split at hhome
  · cases hhome
    exact h
  · cases hcheck : Path.check user with
    | error f =>
      rw [hcheck] at hhome
      cases hhome
    | ok _ =>
      cases hget : Assoc.get? s.homes user with
      | none =>
        rw [hcheck, hget] at hhome
        cases hhome
      | some dir =>
        rw [hcheck, hget] at hhome
        cases hhome
        exact hs _ (Assoc.mem_of_get?_eq_some hget)

theorem expand_congr (ha : Path.anchor q = Path.anchor p) (hp : Path.parts q = Path.parts p) :
    s.expand q = s.expand p := by
  unfold expand Path.normal
  rw [ha, hp]

theorem expand_of_anchor (h : Path.anchor p ≠ "") : s.expand p = .ok (Path.normal p) := by
  unfold expand
  split
  · contradiction
  · rfl

theorem expand_build {a : String} {ps : List String} (ha : Path.IsAnchor a) (hne : a ≠ "")
    (hps : ∀ p ∈ ps, Path.IsPart p) : s.expand (Path.build a ps) = .ok (Path.build a ps) := by
  have hanchor := Path.anchor_build ha hps
  rw [expand_of_anchor (by rwa [hanchor]), Path.normal, hanchor, Path.parts_build ha hps]

theorem anchor_ne_of_isAbsolute (h : Path.isAbsolute p = true) : Path.anchor p ≠ "" := by
  obtain ⟨t, ht⟩ := List.head?_eq_some_iff.1 (of_decide_eq_true h)
  unfold Path.anchor
  rw [ht]
  split <;> simp_all

/-- A path in which the home folder has been filled in stays as it is. -/
theorem expand_expand (hs : s.Homed) (h : s.expand p = .ok q) : s.expand q = .ok q := by
  have hnormal : s.expand (Path.normal p) = s.expand p :=
    expand_congr (Path.anchor_normal p) (Path.parts_normal p)
  have h₀ := h
  unfold expand at h
  split at h
  · split at h
    · rename_i first rest hanchor hparts _ user _
      cases hhome : s.homeOf (String.ofList user) with
      | error f =>
        rw [hhome] at h
        cases h
      | ok home =>
        rw [hhome] at h
        simp only [bind, Except.bind] at h
        split at h
        · cases h
        · cases h
          have habsolute : Path.isAbsolute (if home.toList.all (· = '/') then "/" else home) := by
            split
            · rfl
            · exact hs _ _ hhome
          refine expand_build (Path.isAnchor_anchor _) (anchor_ne_of_isAbsolute habsolute) ?_
          intro part hpart
          rcases List.mem_append.1 hpart with hpart | hpart
          · exact Path.isPart_of_mem_parts hpart
          · exact Path.isPart_of_mem_parts (hparts ▸ List.mem_cons_of_mem _ hpart)
    · cases h
      exact hnormal.trans h₀
  · cases h
    exact hnormal.trans h₀

end Site

/-- The fault as it is told of a path that is written in another way. -/
def TargetFault.shownAs (shown : String) : TargetFault → TargetFault
  | missing _ => missing shown
  | notFolder _ => notFolder shown
  | unusable f => unusable f

/-- A scan finds the same in a path with its home folder filled in. -/
theorem Scan.run_expand {site : Site} {p q : String} (hs : site.Homed)
    (h : site.expand p = .ok q) (sel : Selection) :
    Scan.run site q sel = (Scan.run site p sel).mapError (TargetFault.shownAs q) := by
  unfold Scan.run
  rw [Site.expand_expand hs h, h]
  simp only [bind, Except.bind]
  cases site.resolve q with
  | error f => rfl
  | ok root =>
    dsimp only [Except.mapError]
    cases site.find? root with
    | error f => rfl
    | ok found =>
      cases found with
      | none => rfl
      | some n => cases n <;> rfl

end PerfReview
