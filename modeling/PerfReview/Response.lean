import PerfReview.Citation
import PerfReview.Number.Reader
import PerfReview.Response.Body
import PerfReview.Response.Header

/-!
# Answers of the model

An answer is free text with issue records in it: a header line and the lines up to the next one.
Each record gives an issue or is rejected: for the form of its body, for a file that was not sent,
or for lines that the file does not have, tested in this order. Reading stops at a line number with
more digits than a number may have.
-/

namespace PerfReview

namespace Response

/-- A header with the lines below it. -/
structure Record where
  header : Header
  lines : List Line
  deriving DecidableEq, Repr

/-- The lines before the first header, and the records. -/
structure Outline where
  preamble : List Line
  records : List Record
  deriving DecidableEq, Repr

def Outline.push (l : Line) (o : Outline) : Outline :=
  match Header.ofLine? l with
  | some h => ⟨[], ⟨h, o.preamble⟩ :: o.records⟩
  | none => ⟨l :: o.preamble, o.records⟩

/-- The outline of the lines of an answer. -/
def Outline.ofLines (ls : List Line) : Outline := ls.foldr Outline.push ⟨[], []⟩

def records (text : String) : List Record :=
  (Outline.ofLines (Text.splitFeeds (Text.foldReturns text.toList))).records

inductive Reason where
  | malformed
  | unknownFile
  | lineOutOfRange
  deriving DecidableEq, Repr

def Reason.name : Reason → String
  | .malformed => "malformed"
  | .unknownFile => "unknown_file"
  | .lineOutOfRange => "line_out_of_range"

/-- A record that gave no issue. -/
structure Rejected where
  reason : Reason
  path : String
  startLine : Nat
  endLine : Nat
  detail : String
  deriving DecidableEq, Repr

namespace Rejected

def log (r : Rejected) : Log.Entry :=
  .warning "validators.response_parser"
    s!"Rejected {r.reason.name} record for {r.path}:{Number.natText r.startLine}-{Number.natText r.endLine} ({r.detail})"

end Rejected

/-- What a record gives. -/
inductive Verdict where
  | issue (i : Issue)
  | rejected (r : Rejected)
  deriving DecidableEq, Repr

namespace Verdict

def issue? : Verdict → Option Issue
  | .issue i => some i
  | .rejected _ => none

def rejected? : Verdict → Option Rejected
  | .issue _ => none
  | .rejected r => some r

end Verdict

namespace Record

/-- The file that a record is about, consulted once its body has been read. -/
def source? (ix : Index) (r : Record) : Option Source :=
  (Body.ofLines? r.lines).bind fun _ => ix.resolve (String.ofList r.header.path)

def text (s : List Char) : String := String.ofList (Text.trim s)

def verdict (ix : Index) (r : Record) (first last : Nat) : Verdict :=
  let cited := String.ofList r.header.path
  match Body.ofLines? r.lines with
  | none =>
    .rejected ⟨.malformed, cited, first, last, "record body does not follow the issue format"⟩
  | some b =>
    match ix.resolve cited with
    | none => .rejected ⟨.unknownFile, cited, first, last, "path is not part of the analysed batch"⟩
    | some f =>
      if spanWithin first last f.lineCount then
        .issue
          { severity := r.header.severity, file := f.relative, startLine := first, endLine := last
            description := text b.description, impact := text b.impact, codeContext := text b.code
            solution := text b.solution, expectedImprovement := text b.expected }
      else
        .rejected
          ⟨.lineOutOfRange, f.relative, first, last, s!"file has {Number.natText f.lineCount} line(s)"⟩

/-- Judges a record, unless a line number is too long to be read. -/
def judge (ix : Index) (r : Record) : Except Number.IntFault Verdict := do
  let first ← Number.readDigits r.header.first
  let last ← Number.readDigits r.header.last
  return r.verdict ix first last

end Record

end Response

/-- What the records of an answer give, up to a line number that is too long. -/
structure Response where
  verdicts : List Response.Verdict
  fault : Option Number.IntFault
  deriving DecidableEq, Repr

namespace Response

def issues (r : Response) : List Issue := r.verdicts.filterMap Verdict.issue?

def rejected (r : Response) : List Rejected := r.verdicts.filterMap Verdict.rejected?

def ofRecords (ix : Index) : List Record → Response
  | [] => ⟨[], none⟩
  | r :: rs =>
    match r.judge ix with
    | .error f => ⟨[], some f⟩
    | .ok v => let rest := ofRecords ix rs; ⟨v :: rest.verdicts, rest.fault⟩

/-- Reads an answer about the files of an index. -/
def read (ix : Index) (text : String) : Response := ofRecords ix (records text)

def entries (r : Response) : List Log.Entry := r.rejected.map (·.log)

/-- What is logged when the files are read only as they are consulted: the first consultation of a
file that cannot be read is reported before the verdict that it leads to. -/
def entriesOnDemand (ix : Index) (seen : List String) : List (Record × Verdict) → List Log.Entry
  | [] => []
  | (r, v) :: rest =>
    let consulted := r.source? ix
    let reading :=
      match consulted with
      | some f => if f.relative ∈ seen then [] else f.readLog?.toList
      | none => []
    reading ++ (v.rejected?.map (·.log)).toList ++
      entriesOnDemand ix ((consulted.map (·.relative)).toList ++ seen) rest

end Response

end PerfReview
