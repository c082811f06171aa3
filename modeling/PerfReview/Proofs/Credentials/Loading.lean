import PerfReview.Credentials
import PerfReview.Proofs.Assoc
import PerfReview.Proofs.Disk.Folders
import PerfReview.Proofs.Faults
import PerfReview.Proofs.Yaml.Printing
import PerfReview.Proofs.Yaml.Values

/-!
# Loaded keys

What is loaded depends on the bytes of the file alone, and without a file there are no keys or there
is a fault. Loaded keys have different names, and none of them is empty; so they pass the filter of a
second loading, and a written map of them is loaded as it stands where the notation reads it back.
-/

namespace PerfReview.Credentials

open Yaml (Document)

variable {site : Site} {path : String} {bytes : List UInt8} {keys : List (String × String)}

/-! ## Keys -/

/-- Keys by different names, none of them empty. -/
structure IsKeys (keys : List (String × String)) : Prop where
  nodup : (keys.map (·.1)).Nodup
  ne_empty : ∀ e ∈ keys, e.2 ≠ ""

theorem IsKeys.nil : IsKeys [] := ⟨List.nodup_nil, nofun⟩

theorem IsKeys.put (h : IsKeys keys) {name key : String} (hkey : key ≠ "") :
    IsKeys (Assoc.put name key keys) where
  nodup := Assoc.nodup_keys_put h.nodup
  ne_empty e he := by
    rcases Assoc.mem_put he with rfl | he
    · exact hkey
    · exact h.ne_empty e he

theorem keyPair?_ne_empty {d : Document} {e : Value × Yaml.Item} {p : String × String}
    (h : keyPair? d e = .ok (some p)) : p.2 ≠ "" := by
  unfold keyPair? at h
  split at h
  · cases h
  · rename_i hsub
    dsimp only at h
    split at h
    · cases h
    · cases h
      refine Value.display_ne_empty (Document.value_ne_empty ?_)
      simpa using hsub

theorem ofDocument_isKeys {d : Document} (h : ofDocument path d = .ok keys) : IsKeys keys := by
  unfold ofDocument at h
  dsimp only [bind, Except.bind, pure, Except.pure] at h
  split at h
  · cases h
    exact .nil
  · split at h
    · split at h
      · cases h
        exact .nil
      · split at h
        · cases h
          exact .nil
        · split at h
          · split at h
            · cases h
            · rename_i pairs hpairs
              cases h
              refine ⟨Assoc.nodup_ofPairs pairs, fun e he => ?_⟩
              obtain ⟨entry, -, hentry⟩ := exists_of_mem_filterMapM hpairs (Assoc.mem_ofPairs he)
              exact keyPair?_ne_empty hentry
          · cases h
    · cases h

theorem keyPair?_textEntry (d : Document) {e : String × String} (h : e.2 ≠ "") :
    keyPair? d (Yaml.textEntry e) = .ok (some e) := by
  have hsub : d.isSubstantial (Yaml.textEntry e).2 = true := by
    simpa [Yaml.textEntry, Document.isSubstantial, Value.isSubstantial] using h
  unfold keyPair?
  rw [hsub]
  rfl

theorem ofDocument_of_holds {d : Document} (hkeys : IsKeys keys) (hne : keys ≠ [])
    (h : d.Holds field keys) : ∃ keys', ofDocument path d = .ok keys' ∧ keys'.Perm keys := by
  obtain ⟨item, keys', hperm, hroot, hitem⟩ := h
  have hsubRoot : d.isSubstantial d.root = true := Document.isSubstantial_of_entries? hroot
  have hsubItem : d.isSubstantial item = true := by
    have hne' : keys' ≠ [] := fun h => hne (List.nil_perm.1 (h ▸ hperm))
    rw [Document.isSubstantial_of_entries? hitem]
    simpa using hne'
  have hpairs : (keys'.map Yaml.textEntry).filterMapM (keyPair? d) = .ok keys' :=
    filterMapM_map fun e he => keyPair?_textEntry d (hkeys.ne_empty e (hperm.subset he))
  have hnodup : (keys'.map (·.1)).Nodup := (hperm.map _).nodup_iff.2 hkeys.nodup
  refine ⟨keys', ?_, hperm⟩
  unfold ofDocument
  rw [hsubRoot, hroot]
  simp only [List.find?_cons, decide_true, hsubItem, hitem, hpairs]
  exact congrArg Except.ok (Assoc.ofPairs_eq_self hnodup)

/-! ## Files -/

theorem has_of_read (h : site.read path = .ok bytes) : site.has path = .ok true := by
  obtain ⟨hadmits, place, mode, hloc⟩ := Site.read_eq_ok.1 h
  rw [Site.has, Site.find?, Site.locate_eq, hadmits, hloc]
  rfl

section
variable [Yaml.Library]

/-- The keys in a file of the given bytes. -/
def ofBytes (path : String) (bytes : List UInt8) : Except Fault (List (String × String)) :=
  match Text.decodeStrict bytes with
  | .error m => .error (.undecodable m)
  | .ok cs =>
    match Yaml.Library.read (String.ofList (Text.unifyBreaks cs)) with
    | .error .malformed => .error (.malformed path)
    | .error f => .error (.document f)
    | .ok d => ofDocument path d

theorem load_of_read (h : site.read path = .ok bytes) : load site path = ofBytes path bytes := by
  unfold load Site.readText ofBytes
  rw [has_of_read h, h]
  dsimp only [bind, Except.bind, Except.mapError]
  rw [if_neg (by decide)]
  cases Text.decodeStrict bytes <;> rfl

/-- What is loaded is in a file, or there is none. -/
theorem load_cases (h : load site path = .ok keys) :
    (site.has path = .ok false ∧ keys = []) ∨ ∃ bytes, site.read path = .ok bytes := by
  unfold load Site.readText at h
  cases hhas : site.has path with
  | error f =>
    rw [hhas] at h
    cases h
  | ok found =>
    rw [hhas] at h
    cases found with
    | false =>
      cases h
      exact .inl ⟨rfl, rfl⟩
    | true =>
      cases hread : site.read path with
      | ok bytes => exact .inr ⟨bytes, rfl⟩
      | error f =>
        rw [hread] at h
        cases h

theorem load_of_unread (hread : ∀ bytes, site.read path ≠ .ok bytes)
    (hload : load site path = .ok keys) : site.has path = .ok false ∧ keys = [] :=
  (load_cases hload).resolve_right fun ⟨bytes, hbytes⟩ => hread bytes hbytes

theorem load_of_absent (h : site.has path = .ok false) : load site path = .ok [] := by
  unfold load
  rw [h]
  rfl

theorem load_isKeys (h : load site path = .ok keys) : IsKeys keys := by
  obtain ⟨-, rfl⟩ | ⟨bytes, hread⟩ := load_cases h
  · exact .nil
  · rw [load_of_read hread] at h
    unfold ofBytes at h
    split at h
    · cases h
    · split at h
      · cases h
      · cases h
      · exact ofDocument_isKeys h

theorem get?_eq_ok {q : String} {first : Option String} : get? site path q = .ok first ↔
    ∃ keys, load site path = .ok keys ∧ Assoc.get? keys (Text.small q) = first := by
  unfold get?
  cases load site path with
  | error f => exact iff_of_false nofun fun ⟨_, h, _⟩ => nomatch h
  | ok keys => simp [Except.map]

theorem ofBytes_encode {text : String} {d : Document} (h : Yaml.Printer.IsVisible text.toList)
    (hread : Yaml.Library.read text = .ok d) :
    ofBytes path (Text.encode text) = ofDocument path d := by
  unfold ofBytes
  rw [Text.decodeStrict_encode h.isAscii]
  dsimp only
  rw [Text.unifyBreaks_eq_self h.notMem_return, String.ofList_toList, hread]

end

/-! ## Written keys -/

section
variable [Yaml.Library] [Yaml.Library.WritesVisibly]

def fileText (keys : List (String × String)) : String := Yaml.Library.write field keys

theorem fileText_isVisible (keys : List (String × String)) :
    Yaml.Printer.IsVisible (fileText keys).toList :=
  Yaml.Library.WritesVisibly.visible keys (by decide +kernel)

theorem encodeStrict_fileText (keys : List (String × String)) :
    Text.encodeStrict (fileText keys) = .ok (Text.encode (fileText keys)) :=
  Text.encodeStrict_of_isAscii (fileText_isVisible keys).isAscii

theorem ofBytes_fileText (path : String) (hkeys : IsKeys keys) (hne : keys ≠ [])
    (h : Yaml.ReadsBack field keys) :
    ∃ keys', ofBytes path (Text.encode (fileText keys)) = .ok keys' ∧ keys'.Perm keys := by
  obtain ⟨d, hread, hholds⟩ := h
  rw [ofBytes_encode (fileText_isVisible keys) hread]
  exact ofDocument_of_holds hkeys hne hholds

end

end PerfReview.Credentials
