import PerfReview.Client
import PerfReview.Proofs.Faults
import PerfReview.Proofs.Json.Fields
import PerfReview.Proofs.Json.Reading
import PerfReview.Standard

/-!
# What a client gives back

`Says` spells out where each provider puts the text in its answer. A client gives back what its
provider says, without the white space at its ends, and nothing else. Its faults are its own unless
what it is built on fails: the address cannot be used, a number is too long to be written, or the
body of the answer is not UTF-8, goes beyond the bounds of the reader, or is a document that is no
object.
-/

namespace PerfReview

namespace Provider

variable {items : List Json} {s : String}

/-- A block that says it is text, and the text. -/
inductive TextBlock : Json → String → Prop where
  | intro {fields : List (String × Json)} {s : String}
    (htype : Assoc.get? fields "type" = some (.text "text"))
    (htext : Assoc.get? fields "text" = some (.text s)) : TextBlock (.object fields) s

/-- A part that has a text, and the text. -/
inductive TextPart : Json → String → Prop where
  | intro {fields : List (String × Json)} {s : String}
    (htext : Assoc.get? fields "text" = some (.text s)) : TextPart (.object fields) s

/-- The texts of the items that have one, one after the other. -/
inductive Gathered (has : Json → String → Prop) : List Json → String → Prop where
  | nil : Gathered has [] ""
  | text {j : Json} {s t : String} {items : List Json} (h : has j s)
    (hrest : Gathered has items t) : Gathered has (j :: items) (s ++ t)
  | other {j : Json} {t : String} {items : List Json} (h : ∀ s, ¬has j s)
    (hrest : Gathered has items t) : Gathered has (j :: items) t

/-- What the object of an answer says in the form of each provider. -/
inductive Says : Provider → List (String × Json) → String → Prop where
  | anthropic {fields : List (String × Json)} {blocks : List Json} {s : String}
    (hblocks : Assoc.get? fields "content" = some (.list blocks))
    (htext : Gathered TextBlock blocks s) : Says anthropic fields s
  | gemini {fields first content : List (String × Json)} {others parts : List Json} {s : String}
    (hfirst : Assoc.get? fields "candidates" = some (.list (.object first :: others)))
    (hcontent : Assoc.get? first "content" = some (.object content))
    (hparts : Assoc.get? content "parts" = some (.list parts))
    (htext : Gathered TextPart parts s) : Says gemini fields s
  | message {fields first message : List (String × Json)} {others : List Json} {s : String}
    (hfirst : Assoc.get? fields "choices" = some (.list (.object first :: others)))
    (hmessage : Assoc.get? first "message" = some (.object message))
    (htext : Assoc.get? message "content" = some (.text s)) : Says openai fields s
  | choice {fields first : List (String × Json)} {others : List Json} {s : String}
    (hfirst : Assoc.get? fields "choices" = some (.list (.object first :: others)))
    (hsilent : ∀ message t, Assoc.get? first "message" = some (.object message) →
      Assoc.get? message "content" ≠ some (.text t))
    (htext : Assoc.get? first "text" = some (.text s)) : Says openai fields s

def blockText? (block : Json) : Option String :=
  if (block.field? "type").bind Json.text? = some "text" then partText? block else none

theorem textPart_iff {j : Json} : TextPart j s ↔ partText? j = some s := by
  simp only [partText?, Option.bind_eq_some_iff, Json.text?_eq_some, Json.field?_eq_some]
  constructor
  · rintro ⟨h⟩
    exact ⟨_, ⟨_, rfl, h⟩, rfl⟩
  · rintro ⟨_, ⟨fields, rfl, h⟩, rfl⟩
    exact ⟨h⟩

theorem textBlock_iff {j : Json} : TextBlock j s ↔ blockText? j = some s := by
  unfold blockText?
  constructor
  · rintro ⟨htype, htext⟩
    rw [if_pos (by simp [Json.field?, htype, Json.text?])]
    exact textPart_iff.1 ⟨htext⟩
  · intro h
    split at h
    · rename_i htype
      simp only [Option.bind_eq_some_iff, Json.text?_eq_some, Json.field?_eq_some] at htype
      obtain ⟨_, ⟨fields, rfl, htype⟩, rfl⟩ := htype
      obtain ⟨htext⟩ := textPart_iff.2 h
      exact ⟨htype, htext⟩
    · cases h

theorem gathered_iff {has : Json → String → Prop} {read : Json → Option String}
    (h : ∀ j s, has j s ↔ read j = some s) :
    Gathered has items s ↔ String.join (items.filterMap read) = s := by
  induction items generalizing s with
  | nil =>
    constructor
    · rintro ⟨⟩
      rfl
    · rintro rfl
      exact .nil
  | cons j items ih =>
    rw [List.filterMap_cons]
    cases hread : read j with
    | none =>
      have hnot : ∀ s, ¬has j s := fun s hs => by simp [(h j s).1 hs] at hread
      rw [← ih]
      constructor
      · intro hs
        cases hs with
        | text hj => exact absurd hj (hnot _)
        | other _ hrest => exact hrest
      · exact .other hnot
    | some t =>
      rw [String.join_cons]
      constructor
      · intro hs
        cases hs with
        | text hj hrest =>
          rw [(h _ _).1 hj] at hread
          cases hread
          rw [ih.1 hrest]
        | other hnot => exact absurd ((h _ _).2 hread) (hnot _)
      · rintro rfl
        exact .text ((h _ _).2 hread) (ih.2 rfl)

theorem gathered_textBlock :
    Gathered TextBlock items s ↔ String.join (items.filterMap blockText?) = s :=
  gathered_iff fun _ _ => textBlock_iff

theorem gathered_textPart :
    Gathered TextPart items s ↔ String.join (items.filterMap partText?) = s :=
  gathered_iff fun _ _ => textPart_iff

section
variable {fields : List (String × Json)}

theorem blocksText_object : blocksText (.object fields) = String.join
    ((((Assoc.get? fields "content").bind Json.list?).getD []).filterMap blockText?) :=
  rfl

theorem candidateText_object : candidateText (.object fields) =
    let first := (((Assoc.get? fields "candidates").bind Json.list?).getD []).headD .null
    String.join ((((first.fieldOrNull "content").fieldOrNull "parts").list?.getD []).filterMap
      partText?) :=
  rfl

theorem choiceText_object : choiceText (.object fields) =
    let first := (((Assoc.get? fields "choices").bind Json.list?).getD []).headD .null
    ((((first.fieldOrNull "message").field? "content").bind Json.text?).or
      (partText? first)).getD "" :=
  rfl

/-- The object that stands first is silent where its message has no text. -/
theorem silent_iff {first : List (String × Json)} :
    (((Json.object first).fieldOrNull "message").field? "content").bind Json.text? = none ↔
      ∀ message t, Assoc.get? first "message" = some (.object message) →
        Assoc.get? message "content" ≠ some (.text t) := by
  rw [Option.eq_none_iff_forall_ne_some]
  constructor
  · intro h message t hmessage ht
    refine h t ?_
    simp [Json.fieldOrNull, Json.field?_object, hmessage, ht, Json.text?]
  · intro h t ht
    obtain ⟨_, hfield, htext⟩ := Option.bind_eq_some_iff.1 ht
    cases Json.text?_eq_some.1 htext
    obtain ⟨message, hmessage, ht⟩ := Json.field?_fieldOrNull hfield
    exact h message t hmessage ht

variable {p : Provider}

theorem content_of_says (h : Says p fields s) : p.content (.object fields) = s := by
  cases h with
  | anthropic hblocks htext =>
    rw [content, blocksText_object, hblocks]
    exact gathered_textBlock.1 htext
  | gemini hfirst hcontent hparts htext =>
    rw [content, candidateText_object, hfirst]
    simpa [Json.list?, Json.fieldOrNull, Json.field?_object, hcontent, hparts]
      using gathered_textPart.1 htext
  | message hfirst hmessage htext =>
    rw [content, choiceText_object, hfirst]
    simp [Json.list?, Json.text?, Json.fieldOrNull, Json.field?_object, hmessage, htext]
  | choice hfirst hsilent htext =>
    rw [content, choiceText_object, hfirst]
    dsimp only [Option.bind_some, Json.list?, Option.getD_some, List.headD_cons]
    rw [silent_iff.2 hsilent, textPart_iff.1 ⟨htext⟩]
    rfl

theorem says_of_blocksText (h : blocksText (.object fields) = s) (hs : s ≠ "") :
    Says anthropic fields s := by
  rw [blocksText_object] at h
  cases hblocks : ((Assoc.get? fields "content").bind Json.list?).getD [] with
  | nil =>
    rw [hblocks] at h
    exact absurd h.symm hs
  | cons first others =>
    rw [hblocks] at h
    exact .anthropic (Json.eq_list_of_getD hblocks) (gathered_textBlock.2 h)

theorem says_of_candidateText (h : candidateText (.object fields) = s) (hs : s ≠ "") :
    Says gemini fields s := by
  rw [candidateText_object] at h
  dsimp only at h
  generalize hfirst :
    (((Assoc.get? fields "candidates").bind Json.list?).getD []).headD .null = first at h
  cases hparts : ((first.fieldOrNull "content").fieldOrNull "parts").list? with
  | none =>
    rw [hparts] at h
    exact absurd h.symm hs
  | some parts =>
    rw [hparts] at h
    have hlist := Json.field?_of_fieldOrNull (Json.list?_eq_some.1 hparts) nofun
    obtain ⟨content, hfield, hparts⟩ := Json.field?_fieldOrNull hlist
    obtain ⟨fields', rfl, hfield⟩ := Json.field?_eq_some.1 hfield
    obtain ⟨others, hcandidates⟩ := Json.get?_of_headD hfirst
    exact .gemini hcandidates hfield ‹_› (gathered_textPart.2 h)

theorem says_of_choiceText (h : choiceText (.object fields) = s) (hs : s ≠ "") :
    Says openai fields s := by
  rw [choiceText_object] at h
  dsimp only at h
  generalize hfirst :
    (((Assoc.get? fields "choices").bind Json.list?).getD []).headD .null = first at h
  cases hmessage : ((first.fieldOrNull "message").field? "content").bind Json.text? with
  | some t =>
    rw [hmessage] at h
    cases (show t = s from h)
    obtain ⟨_, hfield, htext⟩ := Option.bind_eq_some_iff.1 hmessage
    cases Json.text?_eq_some.1 htext
    obtain ⟨message, hfield, htext⟩ := Json.field?_fieldOrNull hfield
    obtain ⟨fields', rfl, hfield⟩ := Json.field?_eq_some.1 hfield
    obtain ⟨others, hchoices⟩ := Json.get?_of_headD hfirst
    exact .message hchoices hfield htext
  | none =>
    rw [hmessage, Option.none_or] at h
    cases htext : partText? first with
    | none =>
      rw [htext] at h
      exact absurd h.symm hs
    | some t =>
      rw [htext] at h
      cases (show t = s from h)
      obtain ⟨htext⟩ := textPart_iff.2 htext
      obtain ⟨others, hchoices⟩ := Json.get?_of_headD hfirst
      exact .choice hchoices (silent_iff.1 hmessage) htext

/-- A text that is not empty is in an answer exactly if the provider says it there. -/
theorem content_eq_iff (hs : s ≠ "") : p.content (.object fields) = s ↔ Says p fields s := by
  refine ⟨fun h => ?_, content_of_says⟩
  cases p with
  | anthropic => exact says_of_blocksText h hs
  | gemini => exact says_of_candidateText h hs
  | openai => exact says_of_choiceText h hs

end

end Provider

namespace Call

/-- What a call is made of can be sent: its address can be used, and its numbers be written. -/
structure Sound (c : Call) : Prop where
  model : c.unwritable? = none
  temperature : ∀ a ∈ c.temperature, a.toJson.Writable
  maxTokens : ∀ a ∈ c.maxTokens, a.toJson.Writable
  address : Http.Url.fault? (Http.Url.cleaned c.url) = none

variable {c : Call} {r : Request}

theorem writable_amountField {name : String} {a : Option Amount} :
    (∀ f ∈ amountField name a, f.2.Writable) ↔ ∀ x ∈ a, x.toJson.Writable := by
  cases a <;> simp [amountField]

theorem writable_text (s : String) : (Json.text s).Writable := rfl

theorem writable_textPart (s : String) : (textPart s).Writable := rfl

theorem writable_message (role content : String) : (message role content).Writable := rfl

/-- A length that counts as zero is left out for the standard one; both can be written. -/
theorem writable_length {a : Option Amount} :
    ((a.filter (!·.isZero)).getD standardLength).toJson.Writable ↔ ∀ x ∈ a, x.toJson.Writable := by
  have hstandard : standardLength.toJson.Writable := Json.writable_of_lt (n := 8192) (by decide)
  cases a with
  | none => simpa using hstandard
  | some x =>
    cases hzero : x.isZero with
    | false => simp [Option.filter, hzero]
    | true =>
      refine iff_of_true (by simpa [Option.filter, hzero] using hstandard) fun y hy => ?_
      cases hy
      cases x with
      | whole n =>
        cases of_decide_eq_true hzero
        exact Json.writable_of_lt (n := 0) (by decide)
      | real | flag => rfl

/-- An object that is left out where it is empty. -/
theorem writable_unlessEmpty {name : String} {fields : List (String × Json)} :
    (∀ f ∈ (if fields.isEmpty then [] else [(name, Json.object fields)]), f.2.Writable) ↔
      ∀ f ∈ fields, f.2.Writable := by
  cases fields with
  | nil => simp
  | cons f fs => simp [Json.writable_object]

/-- The numbers of the body are the temperature and the length of the answer. -/
theorem writable_body : (c.body r).Writable ↔
    (∀ a ∈ c.temperature, a.toJson.Writable) ∧ ∀ a ∈ c.maxTokens, a.toJson.Writable := by
  unfold body
  cases c.provider with
  | anthropic =>
    have hsystem : ∀ f ∈ (if r.system = "" then [] else [("system", Json.text r.system)]),
        f.2.Writable := by
      split <;> simp [writable_text]
    simp only [anthropicBody, Json.writable_object, Json.writable_list, List.forall_mem_append,
      List.forall_mem_cons, writable_message, writable_text, writable_length, writable_amountField,
      iff_true_intro hsystem, List.not_mem_nil, false_implies, implies_true, true_and, and_true]
    exact and_comm
  | gemini =>
    have hsystem : ∀ f ∈ (if r.system = "" then []
        else [("systemInstruction", Json.object [("parts", .list [textPart r.system])])]),
        f.2.Writable := by
      split <;> simp [Json.writable_object, Json.writable_list, writable_textPart]
    simp only [geminiBody, Json.writable_object, Json.writable_list, List.forall_mem_append,
      List.forall_mem_cons, writable_text, writable_textPart, writable_amountField,
      writable_unlessEmpty, iff_true_intro hsystem, List.not_mem_nil, false_implies, implies_true,
      true_and, and_true]
  | openai =>
    have hsystem : ∀ f ∈ (if r.system = "" then [] else [message "system" r.system]),
        f.Writable := by
      split <;> simp [writable_message]
    simp only [openaiBody, Json.writable_object, Json.writable_list, List.forall_mem_append,
      List.forall_mem_cons, writable_message, writable_text, writable_amountField,
      iff_true_intro hsystem, List.not_mem_nil, false_implies, implies_true, true_and, and_true]

theorem post_url : (c.post r).url = Http.Url.cleaned c.url := by rw [post]

end Call

namespace Client

/-- A body can be read: it is a text, and no document or one that is an object, and the reader's
bounds are kept. -/
def Legible [Json.Room] (bytes : List UInt8) : Prop :=
  ∃ chars, Text.decodeStrict bytes = .ok chars ∧
    (Json.read (String.ofList chars) = .error .malformed ∨
      ∃ fields, Json.read (String.ofList chars) = .ok (.object fields))

variable {c : Client} {p : Provider} {bytes : List UInt8} {text : String} {r : Request}

theorem call?_failsOnly : FailsOnly ClientFault.isOwn c.call? := by
  unfold call?
  split <;> simp [ClientFault.isOwn]

/-- A request can be posted exactly if the call is sound. -/
theorem post?_failsOnly_iff : FailsOnly ClientFault.isOwn (c.post? r) ↔
    ∀ call, c.call? = .ok call → call.Sound := by
  unfold post?
  rw [failsOnly_bind, and_iff_right call?_failsOnly]
  refine forall_congr' fun call => imp_congr_right fun _ => ?_
  have hbody : (call.post r).body.toValue.isUnwritable = false ↔ _ :=
    Call.writable_body (c := call) (r := r)
  dsimp only
  rw [Call.post_url]
  cases hmodel : call.unwritable? with
  | some u => exact iff_of_false (by simp [ClientFault.isOwn]) fun h => by simp [h.model] at hmodel
  | none =>
    cases hwritable : (call.post r).body.toValue.isUnwritable with
    | true =>
      refine iff_of_false (by simp [ClientFault.isOwn]) fun h => ?_
      simp [hbody.2 ⟨h.temperature, h.maxTokens⟩] at hwritable
    | false =>
      obtain ⟨htemperature, hmaxTokens⟩ := hbody.1 hwritable
      cases haddress : Http.Url.fault? (Http.Url.cleaned call.url) with
      | some f =>
        refine iff_of_false (by simp [ClientFault.isOwn]) fun h => ?_
        simp [h.address] at haddress
      | none => exact iff_of_true (by simp) ⟨hmodel, htemperature, hmaxTokens, haddress⟩

theorem readBody_failsOnly_iff [Json.Room] :
    FailsOnly ClientFault.isOwn (readBody p bytes) ↔ Legible bytes := by
  unfold readBody Legible
  cases Text.decodeStrict bytes with
  | error m => simp [ClientFault.isOwn]
  | ok chars =>
    simp only [Except.ok.injEq, exists_eq_left']
    cases Json.read (String.ofList chars) with
    | error f => cases f <;> simp [ClientFault.isOwn]
    | ok payload =>
      cases payload with
      | object fields =>
        refine iff_of_true ?_ (.inr ⟨fields, rfl⟩)
        simp only [Json.isObject, Bool.not_true, Bool.false_eq_true, if_false]
        split <;> simp [ClientFault.isOwn]
      | _ => simp [Json.isObject, ClientFault.isOwn]

def BodySays [Json.Room] (p : Provider) (bytes : List UInt8) (said : String) : Prop :=
  ∃ chars fields, Text.decodeStrict bytes = .ok chars ∧
    Json.read (String.ofList chars) = .ok (.object fields) ∧ p.Says fields said

/-- The text of a body is what the provider says there, without the white space at its ends. -/
theorem readBody_eq_ok_iff [Json.Room] : readBody p bytes = .ok text ↔
    ∃ said, BodySays p bytes said ∧ text = Text.strip said ∧ text ≠ "" := by
  unfold BodySays
  constructor
  · intro h
    unfold readBody at h
    split at h
    · cases h
    · rename_i chars hchars
      split at h
      any_goals cases h
      rename_i payload hread
      split at h
      · cases h
      · rename_i hobject
        obtain ⟨fields, rfl⟩ : ∃ fields, payload = .object fields := by
          cases payload with
          | object fields => exact ⟨fields, rfl⟩
          | _ => exact absurd rfl hobject
        dsimp only at h
        split at h
        · cases h
        · rename_i hfull
          cases h
          have hsaid : p.content (.object fields) ≠ "" := fun e => hfull (by rw [e]; rfl)
          exact ⟨_, ⟨chars, fields, hchars, hread, (Provider.content_eq_iff hsaid).1 rfl⟩, rfl,
            hfull⟩
  · rintro ⟨said, ⟨chars, fields, hchars, hread, hsays⟩, rfl, hfull⟩
    have hcontent : p.content (.object fields) = said := Provider.content_of_says hsays
    simp [readBody, hchars, hread, Json.isObject, hcontent, hfull]

/-- A delivery can be read, or told of: its body can be read, its number be written. -/
inductive Takes [Json.Room] (timeout : Amount) : Http.Delivery → Prop where
  | body {bytes : List UInt8} (h : Legible bytes) : Takes timeout (.body bytes)
  | refused {status : Int} {reason : String} {detail : List UInt8}
    (h : (Json.int status).Writable) : Takes timeout (.refused status reason detail)
  | unreachable (reason : String) : Takes timeout (.unreachable reason)
  | timedOut (h : timeout.toJson.Writable) : Takes timeout .timedOut

variable {σ : Type} {n : Http.Network σ} {l : Line σ}

theorem showing_isOwn_iff {a : Amount} {f : ClientFault} (hf : f.isOwn = true) :
    (showing a f).isOwn = true ↔ a.toJson.Writable := by
  unfold showing Json.Writable
  cases a.toJson.toValue.isUnwritable with
  | true => simp [ClientFault.isOwn]
  | false => simp [hf]

/-- A delivery is answered by a text or by an own fault exactly if it is taken. -/
theorem readDelivery_answers_iff [Json.Room] {timeout : Amount} {d : Http.Delivery} :
    ((∃ text, readDelivery p timeout d = some (.ok text)) ∨
      ∃ f, readDelivery p timeout d = some (.error f) ∧ f.isOwn = true) ↔ Takes timeout d := by
  cases d with
  | body bytes =>
    simp only [readDelivery, Option.some.injEq]
    rw [← failsOnly_iff, readBody_failsOnly_iff]
    exact ⟨.body, fun | .body h => h⟩
  | refused status reason detail =>
    simp only [readDelivery, Option.some.injEq, reduceCtorEq, exists_const, Except.error.injEq,
      exists_eq_left', false_or]
    rw [showing_isOwn_iff rfl]
    exact ⟨.refused, fun | .refused h => h⟩
  | unreachable reason =>
    exact iff_of_true (.inr ⟨_, rfl, rfl⟩) (.unreachable reason)
  | timedOut =>
    simp only [readDelivery, Option.some.injEq, reduceCtorEq, exists_const, Except.error.injEq,
      exists_eq_left', false_or]
    rw [showing_isOwn_iff rfl]
    exact ⟨.timedOut, fun | .timedOut h => h⟩
  | broken reason => exact iff_of_false (by simp [readDelivery, ClientFault.isOwn]) nofun
  | interrupted => exact iff_of_false (by simp [readDelivery]) nofun

theorem readDelivery_eq_ok_iff [Json.Room] {timeout : Amount} {d : Http.Delivery} :
    readDelivery p timeout d = some (.ok text) ↔
      ∃ bytes, d = .body bytes ∧ readBody p bytes = .ok text := by
  cases d <;> simp [readDelivery]

/-- The text is what the provider says in the answer to a request, without the white space at its
ends, and there is something left. -/
def Receives [Json.Room] (c : Client) (n : Http.Network σ) (l : Line σ) (r : Request)
    (text : String) : Prop :=
  ∃ post bytes said, c.post? r = .ok post ∧ (n.send l.network post).1 = .body bytes ∧
    BodySays c.provider bytes said ∧ text = Text.strip said ∧ text ≠ ""

/-- A client gives back what its provider says in the answer. It fails with no fault but its own
exactly if what it is built on takes the request and the answer. -/
theorem ask_answers [Json.Room] (c : Client) (n : Http.Network σ) (l : Line σ) (r : Request) :
    (∀ text, (c.ask n l r).1 = some (.ok text) ↔ Receives c n l r text) ∧
    (((∃ text, (c.ask n l r).1 = some (.ok text)) ∨
        ∃ f, (c.ask n l r).1 = some (.error f) ∧ f.isOwn = true) ↔
      (∀ call, c.call? = .ok call → call.Sound) ∧
        ∀ post, c.post? r = .ok post → Takes post.timeout (n.send l.network post).1) := by
  rw [← post?_failsOnly_iff (r := r)]
  unfold Receives ask
  cases hpost : c.post? r with
  | error f => simp
  | ok post =>
    dsimp only
    constructor
    · intro text
      rw [readDelivery_eq_ok_iff]
      constructor
      · rintro ⟨bytes, hbody, hread⟩
        obtain ⟨said, hsays, htext, hfull⟩ := readBody_eq_ok_iff.1 hread
        exact ⟨post, bytes, said, rfl, hbody, hsays, htext, hfull⟩
      · rintro ⟨_, bytes, said, ⟨⟩, hbody, hsays⟩
        exact ⟨bytes, hbody, readBody_eq_ok_iff.2 ⟨said, hsays⟩⟩
    · rw [readDelivery_answers_iff, and_iff_right (failsOnly_ok post)]
      exact ⟨fun h _ e => Except.ok.inj e ▸ h, fun h => h post rfl⟩

namespace Sample

/-- A client with a key and the settings that are used unless others are chosen. -/
def client (p : Provider) : Client where
  provider := p
  model := p.defaultModel
  baseUrl := some p.defaultBaseUrl
  temperature := some standardTemperature
  maxTokens := some Call.standardLength
  key := some "k"
  timeout := some standardTimeout

/-- A network that delivers the same body to every post. -/
def delivering (bytes : List UInt8) : Http.Network Unit := ⟨fun st _ => (.body bytes, st)⟩

end Sample

/-- A body that is no text is answered neither by a text nor by an own fault. -/
theorem not_answers_undecodable :
    let answer := ((Sample.client .openai).ask (Sample.delivering [0xFF]) ⟨(), []⟩
      { prompt := "p", system := "" }).1
    ¬((∃ text, answer = some (.ok text)) ∨ ∃ f, answer = some (.error f) ∧ f.isOwn = true) := by
  have h : ((Sample.client .openai).ask (Sample.delivering [0xFF]) ⟨(), []⟩
      { prompt := "p", system := "" }).1.map
        (fun | .ok _ => true | .error f => f.isOwn) = some false := by
    decide +kernel
  dsimp only
  rintro (⟨text, htext⟩ | ⟨f, hf, hown⟩)
  · rw [htext] at h
    cases h
  · rw [hf] at h
    cases hown.symm.trans (Option.some.inj h)

end Client

end PerfReview
