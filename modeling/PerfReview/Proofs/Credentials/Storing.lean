import PerfReview.Proofs.Credentials.Loading

/-!
# Stored keys

Storing a key comes to one of four things: a blank key is refused; keys that cannot be loaded stay as
they are; the file system may refuse the file, and then what is read from it stays; or the file holds
the keys with the new one, which are what is loaded from it.
-/

namespace PerfReview.Credentials

open Change

variable [Yaml.Library] {site site' : Site} {path provider key : String}
  {keys : List (String × String)}

/-- The keys with that of a provider put into place. -/
def withKey (provider key : String) (keys : List (String × String)) : List (String × String) :=
  Assoc.put (Text.small provider) (Text.strip key) keys

/-- What storing a key comes to, and the file system after it. -/
inductive Stores (site : Site) (path provider key : String) : Except Fault Unit → Disk → Prop where
  | blank : Text.strip key = "" → Stores site path provider key (.error .blankKey) site.disk
  | unloaded {f : Fault} : load site path = .error f →
      Stores site path provider key (.error f) site.disk
  | refused {f : PathFault} {keys : List (String × String)} {d : Disk} :
      load site path = .ok keys →
      (∀ bytes, (site.on d).read path = .ok bytes ↔ site.read path = .ok bytes) →
      Stores site path provider key (.error (.unusable f)) d
  | stored {keys : List (String × String)} {d : Disk} : Text.strip key ≠ "" →
      load site path = .ok keys →
      (site.on d).read path = .ok (Text.encode (fileText (withKey provider key keys))) →
      Stores site path provider key (.ok ()) d

/-- A blank key is refused before anything is done. -/
theorem run_set_of_blank (h : Text.strip key = "") (d : Disk) :
    (set site path provider key).run d = (.error .blankKey, d) := by
  rw [set, if_pos h]
  rfl

/-- A key that is not blank is put into place among the loaded keys, which are written. -/
theorem run_set (site : Site) (path provider : String) (h : Text.strip key ≠ "") :
    (set site path provider key).run site.disk =
      match load site path with
      | .error f => (.error f, site.disk)
      | .ok keys =>
        match (site.writeText path (fileText (withKey provider key keys))).run site.disk with
        | (.error (.inl f), d) => (.error (.unusable f), d)
        | (.error (.inr u), d) => (.error (.unusable (.surrogates u)), d)
        | (.ok (), d) => (.ok (), d.setMode (Path.parts (site.absolute path)) 0o600) := by
  unfold set
  rw [if_neg h]
  dsimp only
  rw [run_bind, run_get]
  dsimp only
  rw [run_bind, run_lift]
  have hsite : load (site.on site.disk) path = load site path := rfl
  rw [hsite]
  cases load site path with
  | error f => rfl
  | ok keys =>
    dsimp only
    rw [run_bind, run_adapt]
    unfold fileText withKey
    rcases (site.writeText path (Yaml.Library.write field
      (Assoc.put (Text.small provider) (Text.strip key) keys))).run site.disk with ⟨(f | u) | u, d⟩
    <;> rfl

theorem stores_of_set [Yaml.Library.WritesVisibly] {outcome : Except Fault Unit} {d : Disk}
    (h : (set site path provider key).run site.disk = (outcome, d)) :
    Stores site path provider key outcome d := by
  by_cases hblank : Text.strip key = ""
  · rw [run_set_of_blank hblank] at h
    cases h
    exact .blank hblank
  · rw [run_set site path provider hblank] at h
    cases hload : load site path with
    | error f =>
      rw [hload] at h
      cases h
      exact .unloaded hload
    | ok keys =>
      rw [hload] at h
      dsimp only at h
      have ht := encodeStrict_fileText (withKey provider key keys)
      rcases hwrite : (site.writeText path (fileText (withKey provider key keys))).run site.disk
        with ⟨(f | u) | u, d'⟩ <;> rw [hwrite] at h <;> cases h
      · exact .refused hload (Site.read_of_writeText_fails ht hwrite)
      · exact .refused hload (Site.read_of_writeText_fails ht hwrite)
      · exact .stored hblank hload (Site.read_setMode (Site.read_of_writeText ht hwrite) _)

/-- What is loaded from a file that holds the keys with a new one. -/
theorem load_stored [Yaml.Library.WritesVisibly] (hkey : Text.strip key ≠ "")
    (hload : load site path = .ok keys)
    (hback : Yaml.ReadsBack field (withKey provider key keys))
    (hread : site'.read path = .ok (Text.encode (fileText (withKey provider key keys)))) :
    ∃ keys', load site' path = .ok keys' ∧ ∀ q, Assoc.get? keys' (Text.small q) =
      if Text.small provider = Text.small q then some (Text.strip key)
      else Assoc.get? keys (Text.small q) := by
  have hkeys : IsKeys (withKey provider key keys) := (load_isKeys hload).put hkey
  obtain ⟨keys', hload', hperm⟩ := ofBytes_fileText path hkeys (Assoc.put_ne_nil _ _ _) hback
  refine ⟨keys', (load_of_read hread).trans hload', fun q => ?_⟩
  rw [← Assoc.get?_perm hperm.symm hkeys.nodup, withKey]
  split
  · rename_i hq
    rw [hq, Assoc.get?_put_self]
  · rename_i hq
    rw [Assoc.get?_put_of_ne _ _ hq]

end PerfReview.Credentials
