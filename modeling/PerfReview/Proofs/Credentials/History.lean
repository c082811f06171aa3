import PerfReview.Proofs.Credentials.Storing

/-!
# Histories of stored keys

A history is a list of calls, each answered on the file that the ones before have left. After any
history the file reflects the keys stored last, in front of those it held at first: one call keeps
that, and so does a history. Where there has never been a file, one that the file system refuses may
leave folders behind in which its path leads to something else, and then asking fails.

What is written is taken to be read back; `AllReadBack` says so of the maps that a history writes.
-/

namespace PerfReview.Credentials

/-! ## Events -/

inductive Event where
  | stored (provider key : String) (outcome : Except Fault Unit)
  | found (provider : String) (answer : Except Fault (Option String))

/-- The key that an event has stored for a provider. -/
def Event.keyFor? (provider : String) : Event → Option String
  | stored p key (.ok ()) =>
    if Text.small p = Text.small provider then some (Text.strip key) else none
  | _ => none

/-- The key that was stored last for a provider. -/
def lastKey? (provider : String) (past : List Event) : Option String :=
  past.reverse.findSome? (Event.keyFor? provider)

theorem lastKey?_concat (provider : String) (past : List Event) (e : Event) :
    lastKey? provider (past ++ [e]) = (e.keyFor? provider).or (lastKey? provider past) := by
  rw [lastKey?, List.reverse_append, List.reverse_singleton, List.singleton_append,
    List.findSome?_cons]
  cases e.keyFor? provider <;> rfl

section
variable {past : List Event} {provider key : String} {e : Event}

def Unstored (past : List Event) : Prop := ∀ provider key, Event.stored provider key (.ok ()) ∉ past

def Refused (past : List Event) : Prop :=
  ∃ provider key f, Event.stored provider key (.error (.unusable f)) ∈ past

theorem keyFor?_eq_none (h : ∀ provider key, e ≠ .stored provider key (.ok ())) (q : String) :
    e.keyFor? q = none := by
  unfold Event.keyFor?
  split
  · exact absurd rfl (h _ _)
  · rfl

theorem Unstored.lastKey?_eq_none (h : Unstored past) (q : String) : lastKey? q past = none :=
  List.findSome?_eq_none_iff.2 fun _ he =>
    keyFor?_eq_none (fun provider key hstored => h provider key (hstored ▸ List.mem_reverse.1 he)) q

theorem Unstored.concat (h : Unstored past) (he : ∀ provider key, e ≠ .stored provider key (.ok ())) :
    Unstored (past ++ [e]) := fun provider key hmem => by
  rcases List.mem_append.1 hmem with hmem | hmem
  · exact h provider key hmem
  · exact he provider key (List.mem_singleton.1 hmem).symm

theorem Refused.concat (h : Refused past) (e : Event) : Refused (past ++ [e]) := by
  obtain ⟨provider, key, f, hmem⟩ := h
  exact ⟨provider, key, f, List.mem_append_left _ hmem⟩

theorem refused_concat (provider key : String) (f : PathFault) (past : List Event) :
    Refused (past ++ [.stored provider key (.error (.unusable f))]) :=
  ⟨provider, key, f, List.mem_append_right _ (List.mem_singleton_self _)⟩

end

/-! ## Histories -/

section
variable [Yaml.Library] {site : Site} {path provider key : String} {keys : List (String × String)}

inductive Call where
  | set (provider key : String)
  | get (provider : String)

namespace Call

/-- The call with its answer, and the site after it. -/
def run (path : String) (site : Site) : Call → Event × Site
  | set provider key =>
    let result := (Credentials.set site path provider key).run site.disk
    (.stored provider key result.1, site.on result.2)
  | get provider => (.found provider (get? site path provider), site)

/-- The keys that the call writes into the file, if it comes to that. -/
def written? (path : String) (site : Site) : Call → Option (List (String × String))
  | set provider key =>
    if Text.strip key = "" then none
    else (load site path).toOption.map (withKey provider key)
  | get _ => none

theorem written?_eq (hkey : Text.strip key ≠ "") (hload : load site path = .ok keys) :
    (set provider key).written? path site = some (withKey provider key keys) := by
  rw [written?, if_neg hkey, hload]
  rfl

/-- What the call writes is read as it was written. -/
def ReadsBack (path : String) (site : Site) (c : Call) : Prop :=
  ∀ keys, c.written? path site = some keys → Yaml.ReadsBack field keys

theorem readsBack_of_load (hkey : Text.strip key ≠ "") (hload : load site path = .ok keys)
    (h : Yaml.ReadsBack field (withKey provider key keys)) :
    (set provider key).ReadsBack path site := by
  intro keys' hkeys'
  cases (written?_eq hkey hload).symm.trans hkeys'
  exact h

theorem readsBack_of_blank (h : Text.strip key = "") : (set provider key).ReadsBack path site := by
  intro keys hkeys
  rw [written?, if_pos h] at hkeys
  cases hkeys

theorem readsBack_get (path : String) (site : Site) (provider : String) :
    (get provider).ReadsBack path site := fun keys hkeys => by cases hkeys

end Call

/-- The calls with their answers, and the site after them. -/
def history (path : String) (site : Site) : List Call → List Event × Site
  | [] => ([], site)
  | c :: calls =>
    let answered := c.run path site
    let rest := history path answered.2 calls
    (answered.1 :: rest.1, rest.2)

/-- What the calls of a history write is read as it was written. -/
def AllReadBack (path : String) (site : Site) : List Call → Prop
  | [] => True
  | c :: calls => c.ReadsBack path site ∧ AllReadBack path (c.run path site).2 calls

/-! ## What a file reflects -/

variable {past : List Event} {initial site' : Site} {e : Event} {c : Call}

/-- What is loaded from a path is what was stored last, in front of what was there at first. -/
inductive Reflects (path : String) (initial : Site) (past : List Event) (site : Site) : Prop where
  | filed {bytes : List UInt8} {keys : List (String × String)} : site.read path = .ok bytes →
      load site path = .ok keys →
      (∀ q first, get? initial path q = .ok first →
        Assoc.get? keys (Text.small q) = (lastKey? q past).or first) →
      Reflects path initial past site
  | unfiled : initial.has path = .ok false → (∀ bytes, site.read path ≠ .ok bytes) →
      Unstored past →
      (load site path = .ok [] ∨ Refused past ∧ ∃ f, load site path = .error f) →
      Reflects path initial past site

theorem reflects_initial (h : load site path = .ok keys) : Reflects path site [] site := by
  by_cases hread : ∃ bytes, site.read path = .ok bytes
  · obtain ⟨bytes, hread⟩ := hread
    refine .filed hread h fun q first hfirst => ?_
    obtain ⟨keys', hload, rfl⟩ := get?_eq_ok.1 hfirst
    cases h.symm.trans hload
    rfl
  · have hread : ∀ bytes, site.read path ≠ .ok bytes := fun bytes hbytes => hread ⟨bytes, hbytes⟩
    obtain ⟨habsent, rfl⟩ := load_of_unread hread h
    exact .unfiled habsent hread (fun _ _ => List.not_mem_nil) (.inl h)

theorem Reflects.get?_eq (h : Reflects path initial past site) (hload : load site path = .ok keys)
    {q : String} {first : Option String} (hfirst : get? initial path q = .ok first) :
    Assoc.get? keys (Text.small q) = (lastKey? q past).or first := by
  cases h with
  | filed _ hload' hkeys =>
    cases hload.symm.trans hload'
    exact hkeys q first hfirst
  | unfiled habsent hread hunstored _ =>
    obtain ⟨first', hload', rfl⟩ := get?_eq_ok.1 hfirst
    cases (load_of_absent habsent).symm.trans hload'
    rw [hunstored.lastKey?_eq_none, (load_of_unread hread hload).2]
    rfl

theorem Reflects.concat (h : Reflects path initial past site)
    (he : ∀ provider key, e ≠ .stored provider key (.ok ())) :
    Reflects path initial (past ++ [e]) site := by
  cases h with
  | filed hread hload hkeys =>
    refine .filed hread hload fun q first hfirst => ?_
    rw [lastKey?_concat, keyFor?_eq_none he, Option.none_or]
    exact hkeys q first hfirst
  | unfiled habsent hread hunstored hload =>
    exact .unfiled habsent hread (hunstored.concat he) (hload.imp_right (.imp_left (.concat · e)))

theorem Reflects.refused (h : Reflects path initial past site) {f : PathFault}
    (hread' : ∀ bytes, site'.read path = .ok bytes ↔ site.read path = .ok bytes) :
    Reflects path initial (past ++ [.stored provider key (.error (.unusable f))]) site' := by
  cases h.concat (e := .stored provider key (.error (.unusable f))) nofun with
  | filed hread hload hkeys =>
    refine .filed ((hread' _).2 hread) ?_ hkeys
    rw [load_of_read ((hread' _).2 hread), ← load_of_read hread, hload]
  | unfiled habsent hread hunstored _ =>
    have hnone : ∀ bytes, site'.read path ≠ .ok bytes := fun bytes hbytes =>
      hread bytes ((hread' bytes).1 hbytes)
    refine .unfiled habsent hnone hunstored ?_
    cases hload : load site' path with
    | error f' => exact .inr ⟨refused_concat provider key f past, f', rfl⟩
    | ok keys => exact .inl ((load_of_unread hnone hload).2 ▸ rfl)

/-! ## Answers -/

/-- No file has ever been at the path, and the file system has refused to write one. -/
structure NeverFiled (path : String) (initial : Site) (past : List Event) : Prop where
  absent : initial.has path = .ok false
  unstored : Unstored past
  refused : Refused past

/-- What is found for a provider is the key stored last, or else what was found at first. -/
def IsAnswer (path : String) (initial : Site) (past : List Event) (q : String)
    (answer : Except Fault (Option String)) : Prop :=
  ∃ first, get? initial path q = .ok first ∧
    (answer = .ok ((lastKey? q past).or first) ∨
      NeverFiled path initial past ∧ ∃ f, answer = .error f)

theorem Reflects.isAnswer (h : Reflects path initial past site) {q : String} {first : Option String}
    (hfirst : get? initial path q = .ok first) :
    IsAnswer path initial past q (get? site path q) := by
  refine ⟨first, hfirst, ?_⟩
  cases hload : load site path with
  | ok keys => exact .inl (get?_eq_ok.2 ⟨keys, hload, h.get?_eq hload hfirst⟩)
  | error f =>
    cases h with
    | filed _ hload' _ => cases hload.symm.trans hload'
    | unfiled habsent _ hunstored hload' =>
      obtain hempty | ⟨hrefused, -⟩ := hload'
      · cases hload.symm.trans hempty
      · refine .inr ⟨⟨habsent, hunstored, hrefused⟩, f, ?_⟩
        rw [get?, hload]
        rfl

/-! ## Steps -/

section
variable [Yaml.Library.WritesVisibly]

theorem Reflects.stored (h : Reflects path initial past site) (hkey : Text.strip key ≠ "")
    (hload : load site path = .ok keys)
    (hback : Yaml.ReadsBack field (withKey provider key keys))
    (hread : site'.read path = .ok (Text.encode (fileText (withKey provider key keys)))) :
    Reflects path initial (past ++ [.stored provider key (.ok ())]) site' := by
  obtain ⟨keys', hload', hkeys'⟩ := load_stored hkey hload hback hread
  refine .filed hread hload' fun q first hfirst => ?_
  rw [hkeys', lastKey?_concat, Event.keyFor?]
  split
  · rfl
  · exact h.get?_eq hload hfirst

theorem reflects_step (h : Reflects path initial past site) (hback : c.ReadsBack path site) :
    Reflects path initial (past ++ [(c.run path site).1]) (c.run path site).2 := by
  cases c with
  | get q => exact h.concat nofun
  | set provider key =>
    rcases hrun : (set site path provider key).run site.disk with ⟨outcome, d⟩
    simp only [Call.run, hrun]
    cases stores_of_set hrun with
    | blank hblank => exact h.concat nofun
    | unloaded hload => exact h.concat nofun
    | refused hload hread => exact h.refused hread
    | stored hkey hload hread =>
      exact h.stored hkey hload (hback _ (Call.written?_eq hkey hload)) hread

theorem reflects_history {calls : List Call} (h : Reflects path initial past site)
    (hback : AllReadBack path site calls) :
    Reflects path initial (past ++ (history path site calls).1) (history path site calls).2 := by
  induction calls generalizing past site with
  | nil => simpa [history] using h
  | cons c calls ih =>
    have hrest := ih (reflects_step h hback.1) hback.2
    rw [List.append_assoc] at hrest
    exact hrest

theorem isAnswer_of_history {calls : List Call} {before after : List Event} {q : String}
    {first : Option String} {answer : Except Fault (Option String)}
    (h : Reflects path initial past site) (hback : AllReadBack path site calls)
    (hfirst : get? initial path q = .ok first)
    (hevents : (history path site calls).1 = before ++ .found q answer :: after) :
    IsAnswer path initial (past ++ before) q answer := by
  induction calls generalizing past site before with
  | nil => cases before <;> cases hevents
  | cons c calls ih =>
    have hevents : (c.run path site).1 :: (history path (c.run path site).2 calls).1 =
      before ++ .found q answer :: after := hevents
    cases before with
    | nil =>
      cases c with
      | set provider key => cases hevents
      | get q' =>
        cases hevents
        rw [List.append_nil]
        exact h.isAnswer hfirst
    | cons e before =>
      obtain ⟨rfl, hlater⟩ := List.cons.inj hevents
      have hanswer := ih (reflects_step h hback.1) hback.2 hlater
      rwa [List.append_assoc] at hanswer

/-- Storing the key of one provider changes nothing for another. -/
theorem Reflects.spares (h : Reflects path initial past site) {q : String}
    (hback : (Call.set provider key).ReadsBack path site)
    (hq : Text.small provider ≠ Text.small q) :
    get? ((Call.set provider key).run path site).2 path q = get? site path q ∨
      NeverFiled path initial (past ++ [((Call.set provider key).run path site).1]) ∧
        ∃ f, get? ((Call.set provider key).run path site).2 path q = .error f := by
  rcases hrun : (set site path provider key).run site.disk with ⟨outcome, d⟩
  simp only [Call.run, hrun]
  cases stores_of_set hrun with
  | blank | unloaded => exact .inl rfl
  | stored hkey hload hread =>
    obtain ⟨keys', hload', hkeys'⟩ :=
      load_stored hkey hload (hback _ (Call.written?_eq hkey hload)) hread
    refine .inl ?_
    rw [get?, hload', get?, hload]
    exact congrArg Except.ok ((hkeys' q).trans (if_neg hq))
  | @refused f keys _ hload hread =>
    cases h with
    | filed hbytes hload' _ =>
      refine .inl ?_
      rw [get?, load_of_read ((hread _).2 hbytes), ← load_of_read hbytes, get?]
    | unfiled habsent hnone hunstored _ =>
      have hnone' : ∀ bytes, (site.on d).read path ≠ .ok bytes := fun bytes hbytes =>
        hnone bytes ((hread bytes).1 hbytes)
      cases hload' : load (site.on d) path with
      | ok keys' =>
        refine .inl ?_
        rw [get?, hload', get?, hload, (load_of_unread hnone hload).2,
          (load_of_unread hnone' hload').2]
      | error f' =>
        refine .inr ⟨⟨habsent, hunstored.concat nofun, refused_concat provider key f past⟩, f', ?_⟩
        rw [get?, hload']
        rfl

/-- The file is a map whose keys are those stored last. -/
structure Faithful (path : String) (initial : Site) (past : List Event) (site : Site) : Prop where
  /-- Every question is answered. -/
  answers : ∀ before q answer after, past = before ++ .found q answer :: after →
    IsAnswer path initial before q answer
  /-- A blank key is refused, and nothing changes. -/
  refuses : ∀ provider key, Text.strip key = "" →
    (set site path provider key).run site.disk = (.error .blankKey, site.disk)
  /-- The key of another provider stays. -/
  spares : ∀ provider key, (Call.set provider key).ReadsBack path site → ∀ q,
    Text.small provider ≠ Text.small q →
      let answered := (Call.set provider key).run path site
      get? answered.2 path q = get? site path q ∨
        NeverFiled path initial (past ++ [answered.1]) ∧ ∃ f, get? answered.2 path q = .error f

/-- After any history a question is answered with the key stored last, or else as it was at first. -/
theorem history_faithful {calls : List Call} (hload : load site path = .ok keys)
    (hback : AllReadBack path site calls) :
    Faithful path site (history path site calls).1 (history path site calls).2 where
  answers _ _ _ _ hevents :=
    isAnswer_of_history (reflects_initial hload) hback (get?_eq_ok.2 ⟨keys, hload, rfl⟩) hevents
  refuses _ _ hblank := run_set_of_blank hblank _
  spares _ _ hback' _ hq :=
    (reflects_history (reflects_initial hload) hback).spares hback' hq

end

end

/-- A file with a name in capitals, a number and a name without a key. -/
def handEdited : Site :=
  ⟨⟨.folder [("k", .file (Text.encode "api_keys:\n  OpenAI: x\n  b: 12\n  c:\n") 0o644)]⟩, "/", "/", []⟩

theorem load_handEdited : load handEdited "k" = .ok [("OpenAI", "x"), ("b", "12")] := by
  decide +kernel

/-- The keys of the file, with one put into place, are written so that they are read back. -/
theorem readsBack_handEdited : Yaml.ReadsBack field [("OpenAI", "x"), ("b", "key")] := by
  have htext : fileText [("OpenAI", "x"), ("b", "key")] = "api_keys:\n  OpenAI: x\n  b: key\n" :=
    (Yaml.Printer.document_of_sorted field (by decide)).trans (by decide +kernel)
  have hread : Yaml.Library.read "api_keys:\n  OpenAI: x\n  b: key\n" = .ok ⟨.container 0, #[
    some (.map [(.text "api_keys", .container 2)]), none,
    some (.map [(.text "OpenAI", .plain (.text "x")), (.text "b", .plain (.text "key"))]),
    none, none, none, none]⟩ := by
    decide +kernel
  exact ⟨_, htext ▸ hread, .container 2, _, .refl _, rfl, rfl⟩

theorem history_faithful_handEdited :
    let calls : List Call := [.set "B" " key ", .set "b" " ", .get "B", .get "OpenAI"]
    load handEdited "k" = .ok [("OpenAI", "x"), ("b", "12")] ∧ AllReadBack "k" handEdited calls ∧
      Faithful "k" handEdited (history "k" handEdited calls).1 (history "k" handEdited calls).2 := by
  have hkey : Text.strip " key " ≠ "" := by decide +kernel
  have hput : withKey "B" " key " [("OpenAI", "x"), ("b", "12")] =
    [("OpenAI", "x"), ("b", "key")] := by decide +kernel
  have hback : AllReadBack "k" handEdited
      [.set "B" " key ", .set "b" " ", .get "B", .get "OpenAI"] :=
    ⟨Call.readsBack_of_load hkey load_handEdited (hput ▸ readsBack_handEdited),
      Call.readsBack_of_blank (by decide +kernel), Call.readsBack_get _ _ _,
      Call.readsBack_get _ _ _, trivial⟩
  exact ⟨load_handEdited, hback, history_faithful load_handEdited hback⟩

def bare : Site := ⟨.empty, "/", "/", []⟩

/-- Where a file is refused and its folder stays, a question is no longer answered: nothing was found
at first and nothing has been stored, but now there is a fault. -/
theorem not_answered_newFolder :
    let calls : List Call := [.set "a" "k", .get "a"]
    load bare "new/.." = .ok [] ∧ AllReadBack "new/.." bare calls ∧
      ¬ ∀ before q answer after,
        (history "new/.." bare calls).1 = before ++ .found q answer :: after →
          ∃ first, get? bare "new/.." q = .ok first ∧
            answer = .ok ((lastKey? q before).or first) := by
  have hload : load bare "new/.." = .ok [] := by decide +kernel
  have hkey : Text.strip "k" ≠ "" := by decide +kernel
  have hput : withKey "a" "k" [] = [("a", "k")] := by decide +kernel
  have htext : fileText [("a", "k")] = "api_keys:\n  a: k\n" :=
    (Yaml.Printer.document_of_sorted field (by simp)).trans (by decide +kernel)
  have hread : Yaml.Library.read "api_keys:\n  a: k\n" = .ok ⟨.container 0, #[
    some (.map [(.text "api_keys", .container 2)]), none,
    some (.map [(.text "a", .plain (.text "k"))]), none, none]⟩ := by
    decide +kernel
  have hback : Yaml.ReadsBack field [("a", "k")] :=
    ⟨_, htext ▸ hread, .container 2, _, .refl _, rfl, rfl⟩
  have hwrite : (bare.writeText "new/.." "api_keys:\n  a: k\n").run bare.disk =
      (.error (.inl (.disk .isFolder "new/..")), ⟨.folder [("new", .folder [])]⟩) := by rfl
  have hset : (set bare "new/.." "a" "k").run bare.disk =
      (.error (.unusable (.disk .isFolder "new/..")), ⟨.folder [("new", .folder [])]⟩) := by
    rw [run_set bare "new/.." "a" hkey, hload]
    dsimp only
    rw [hput, htext, hwrite]
  have hget : get? (bare.on ⟨.folder [("new", .folder [])]⟩) "new/.." "a" =
    .error (.unreadable (.disk .isFolder "new/..") "new/..") := by decide +kernel
  have hevents : (history "new/.." bare [.set "a" "k", .get "a"]).1 =
      [.stored "a" "k" (.error (.unusable (.disk .isFolder "new/.."))),
        .found "a" (.error (.unreadable (.disk .isFolder "new/..") "new/.."))] := by
    simp only [history, Call.run, hset, hget]
  refine ⟨hload, ⟨Call.readsBack_of_load hkey hload (hput ▸ hback),
    Call.readsBack_get _ _ _, trivial⟩, fun h => ?_⟩
  obtain ⟨first, -, hanswer⟩ := h [_] _ _ [] hevents
  cases hanswer

end PerfReview.Credentials
