import PerfReview.Proofs.Response.Readable

/-!
# Answers joined at a header line

A header line cuts an answer: what stands before it is read as if the answer ended there, and what
follows as if it began there. The line feed between the two parts belongs to neither.
-/

namespace PerfReview.Response

open Text

/-! ## Records and verdicts -/

/-- Lines in front of an outline that begins with a record, or that is empty. -/
theorem Outline.foldr_push (ls : List Line) (rs : List Record) :
    ls.foldr push ⟨[], rs⟩ = ⟨(ofLines ls).preamble, (ofLines ls).records ++ rs⟩ := by
  induction ls with
  | nil => rfl
  | cons l ls ih =>
    have step : ofLines (l :: ls) = (ofLines ls).push l := rfl
    rw [List.foldr_cons, ih, step, push, push]
    cases Header.ofLine? l with
    | some hd => rfl
    | none => rfl

theorem Outline.records_append {line : Line} {hd : Header} (h : hd.Fits line)
    (ls rest : List Line) : (ofLines (ls ++ line :: rest)).records =
      (ofLines ls).records ++ (ofLines (line :: rest)).records := by
  have hsplit : ofLines (ls ++ line :: rest) = ls.foldr push (ofLines (line :: rest)) :=
    List.foldr_append
  rw [hsplit, ofLines_cons h, foldr_push]

/-- The lines of two texts, joined by a line feed that completes no break. -/
theorem lines_append_feed {t : String} (hend : t.toList.getLast? ≠ some '\r') (t' : String) :
    splitFeeds (foldReturns (t ++ "\n" ++ t').toList) =
      splitFeeds (foldReturns t.toList) ++ splitFeeds (foldReturns t'.toList) := by
  have htext : (t ++ "\n" ++ t').toList = t.toList ++ '\n' :: t'.toList := by
    rw [String.toList_append, String.toList_append, List.append_assoc]
    rfl
  rw [htext, foldReturns_append_feed _ hend, splitFeeds_append_feed]

/-- The records of two texts, the second of which begins with a header line. -/
theorem records_append_feed {t t' : String} {line : Line} {rest : List Line} {hd : Header}
    (hend : t.toList.getLast? ≠ some '\r')
    (hlines : splitFeeds (foldReturns t'.toList) = line :: rest) (hfits : hd.Fits line) :
    records (t ++ "\n" ++ t') = records t ++ records t' := by
  simp only [records]
  rw [lines_append_feed hend, hlines, Outline.records_append hfits]

/-- Records that are read to their end bear on none of those after them. -/
theorem ofRecords_append {ix : Index} {rs : List Record} (h : (ofRecords ix rs).fault = none)
    (rs' : List Record) : ofRecords ix (rs ++ rs') =
      ⟨(ofRecords ix rs).verdicts ++ (ofRecords ix rs').verdicts, (ofRecords ix rs').fault⟩ := by
  induction rs with
  | nil => rfl
  | cons r rs ih =>
    rw [ofRecords] at h ⊢
    rw [List.cons_append, ofRecords]
    cases hj : r.judge ix with
    | error f =>
      rw [hj] at h
      cases h
    | ok v =>
      rw [hj] at h
      simp only [ih h, List.cons_append]

/-! ## Answers -/

/-- An answer and one that begins with a header line, joined by a line feed, give what both give,
record by record. -/
theorem read_append_feed (ix : Index) (t t' : String) {line : Line} {rest : List Line} {hd : Header}
    (hend : t.toList.getLast? ≠ some '\r')
    (hlines : splitFeeds (foldReturns t'.toList) = line :: rest) (hfits : hd.Fits line)
    (ht : (read ix t).fault = none) (ht' : (read ix t').fault = none) :
    (read ix (t ++ "\n" ++ t')).issues = (read ix t).issues ++ (read ix t').issues ∧
      (read ix (t ++ "\n" ++ t')).rejected = (read ix t).rejected ++ (read ix t').rejected ∧
      (read ix (t ++ "\n" ++ t')).verdicts = (read ix t).verdicts ++ (read ix t').verdicts ∧
      (read ix (t ++ "\n" ++ t')).fault = none := by
  have hread : read ix (t ++ "\n" ++ t') =
      ⟨(read ix t).verdicts ++ (read ix t').verdicts, (read ix t').fault⟩ := by
    rw [read, records_append_feed hend hlines hfits]
    exact ofRecords_append ht _
  rw [hread]
  exact ⟨List.filterMap_append, List.filterMap_append, rfl, ht'⟩

def unclosedRecord : String :=
  "🚨 a.js:1-1\r\nDescription: d\r\nImpact: i\r\nCode Context:\r\n\x60\x60\x60\r\nx"

/-- The record that breaks off does not take its fence from the one below it. -/
theorem read_append_feed_unclosed : unclosedRecord.toList.getLast? ≠ some '\r' ∧
    (read oneFile unclosedRecord).fault = none ∧ (read oneFile twoRecords).fault = none ∧
    ∃ line rest, splitFeeds (foldReturns twoRecords.toList) = line :: rest ∧
      (∃ hd : Header, hd.Fits line) ∧
      (read oneFile (unclosedRecord ++ "\n" ++ twoRecords)).issues =
        (read oneFile unclosedRecord).issues ++ (read oneFile twoRecords).issues ∧
      (read oneFile (unclosedRecord ++ "\n" ++ twoRecords)).rejected =
        (read oneFile unclosedRecord).rejected ++ (read oneFile twoRecords).rejected ∧
      (read oneFile (unclosedRecord ++ "\n" ++ twoRecords)).verdicts =
        (read oneFile unclosedRecord).verdicts ++ (read oneFile twoRecords).verdicts ∧
      (read oneFile (unclosedRecord ++ "\n" ++ twoRecords)).fault = none := by
  have hend : unclosedRecord.toList.getLast? ≠ some '\r' := by decide +kernel
  have ht : (read oneFile unclosedRecord).fault = none := by decide +kernel
  have ht' : (read oneFile twoRecords).fault = none := by decide +kernel
  have hlines : splitFeeds (foldReturns twoRecords.toList) =
      "- 🚨 ./a.js:1-1".toList :: (splitFeeds (foldReturns twoRecords.toList)).tail := by
    decide +kernel
  have hfits : Header.Fits ⟨.critical, "./a.js".toList, ['1'], ['1']⟩ "- 🚨 ./a.js:1-1".toList :=
    Header.ofLine?_eq_some_iff.1 (by decide +kernel)
  exact ⟨hend, ht, ht', _, _, hlines, ⟨_, hfits⟩,
    read_append_feed oneFile unclosedRecord twoRecords hend hlines hfits ht ht'⟩

end PerfReview.Response
