import Mathlib.Data.List.TakeWhile
import PerfReview.Text.Lines
import PerfReview.Text.Utf8

/-!
# Texts of ASCII

A character of ASCII is one byte, which the decoder takes for a whole character. So a text of ASCII
has bytes, and they are read as it; where it has no carriage return, its breaks stay as they are.
-/

namespace PerfReview.Text

/-- A text whose characters are one byte each. -/
def IsAscii (s : List Char) : Prop := ∀ c ∈ s, c.toNat < 0x80

/-! ## Bytes -/

theorem toList_loop (bytes : ByteArray) (i : Nat) (done : List UInt8) :
    ByteArray.toList.loop bytes i done = done.reverse ++ bytes.data.toList.drop i := by
  induction i, done using ByteArray.toList.loop.induct bytes with
  | case1 i done h ih =>
    have hi : i < bytes.data.toList.length := h
    rw [ByteArray.toList.loop, if_pos h, ih, List.drop_eq_getElem_cons hi]
    simp [ByteArray.get!, h]
  | case2 i done h =>
    have hi : bytes.data.toList.length ≤ i := Nat.le_of_not_lt h
    rw [ByteArray.toList.loop, if_neg h, List.drop_eq_nil_of_le hi, List.append_nil]

theorem encode_eq (s : String) : encode s = s.toList.flatMap String.utf8EncodeChar := by
  rw [encode, String.toUTF8, ← String.ofList_toList (s := s), String.toByteArray_ofList,
    List.utf8Encode, ByteArray.toList, toList_loop]
  simp

theorem encodeStrict_of_isAscii {s : String} (h : IsAscii s.toList) :
    encodeStrict s = .ok (encode s) := by
  have hall : ∀ c ∈ s.toList, (!isSurrogate c) = true := by
    intro c hc
    have hlow : ¬ firstStandIn ≤ c.toNat := Nat.not_le.2 ((h c hc).trans (by decide))
    simp [isSurrogate, hlow]
  have hwritable : unwritable? s = none := by
    simp only [unwritable?, List.takeWhile_eq_self_iff.2 hall, List.drop_length]
  rw [encodeStrict, hwritable]

theorem step_of_isAscii {c : Char} (hc : c.toNat < 0x80) (offset : Nat) (done : List Piece) :
    Decoder.step ⟨offset, none, done⟩ (UInt8.ofNat c.toNat) =
      ⟨offset + 1, none, .char c :: done⟩ := by
  have hb : (UInt8.ofNat c.toNat).toNat = c.toNat := by
    rw [UInt8.toNat_ofNat']
    omega
  simp only [Decoder.step, Decoder.first, hb, if_pos hc, Char.ofNat_toNat]

theorem pieces_of_isAscii {s : List Char} (h : IsAscii s) :
    pieces (s.flatMap String.utf8EncodeChar) = s.map .char := by
  suffices ∀ offset done, ((s.flatMap String.utf8EncodeChar).foldl Decoder.step
      ⟨offset, none, done⟩).finish = done.reverse ++ s.map .char from this 0 []
  induction s with
  | nil => exact fun offset done => (List.append_nil _).symm
  | cons c s ih =>
    intro offset done
    obtain ⟨hc, hs⟩ := List.forall_mem_cons.1 h
    have hbyte : String.utf8EncodeChar c = [UInt8.ofNat c.toNat] := by
      have hc' : c.val.toNat ≤ 127 := Nat.lt_succ_iff.1 hc
      simp only [String.utf8EncodeChar, if_pos hc']
      rfl
    rw [List.flatMap_cons, hbyte, List.singleton_append, List.foldl_cons, step_of_isAscii hc,
      ih hs]
    simp

theorem decodeStrict_encode {s : String} (h : IsAscii s.toList) :
    decodeStrict (encode s) = .ok s.toList := by
  rw [encode_eq, decodeStrict, pieces_of_isAscii h]
  clear h
  induction s.toList with
  | nil => rfl
  | cons c s ih =>
    rw [List.map_cons, List.mapM_cons, ih]
    rfl

/-! ## Breaks -/

theorem unifyBreaks_eq_self {s : List Char} (h : '\r' ∉ s) : unifyBreaks s = s := by
  induction s with
  | nil => rfl
  | cons c s ih =>
    obtain ⟨hc, hs⟩ := not_or.1 (mt List.mem_cons.2 h)
    have hs := ih hs
    unfold unifyBreaks at hs ⊢
    rw [List.foldr_cons, unifyStep, if_neg (Ne.symm hc), hs]

end PerfReview.Text
