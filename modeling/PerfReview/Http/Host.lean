import PerfReview.Text.Lines
import PerfReview.Text.Search

/-!
# Hosts in brackets

What may stand between the brackets of an address: an address of the sixth version of the protocol,
with a zone or without, or one of a version to come, which names that version. An address of the
sixth version is eight groups of up to four digits of base sixteen; one run of zero groups may be
left out, and the last two groups may be written as four bytes.
-/

namespace PerfReview.Http.Host

def isHex (c : Char) : Bool :=
  c.isDigit || ('a' ≤ c && c ≤ 'f') || ('A' ≤ c && c ≤ 'F')

/-- A byte in decimal without a zero in front. -/
def isByte (s : List Char) : Bool :=
  !s.isEmpty && s.length ≤ 3 && s.all Char.isDigit && (s.length = 1 || s.head? ≠ some '0') &&
    s.foldl (fun n c => n * 10 + (c.toNat - 48)) 0 ≤ 255

def isFourBytes (s : List Char) : Bool :=
  let parts := Text.splitOn '.' s
  parts.length = 4 && parts.all isByte

def isGroup (s : List Char) : Bool := !s.isEmpty && s.length ≤ 4 && s.all isHex

/-- The groups of an address, its last two written as groups if they are written as bytes. -/
def groups? (s : List Char) : Option (List (List Char)) :=
  let parts := Text.splitOn ':' s
  let last := parts.getLast?.getD []
  if parts.length < 3 then none
  else if !last.contains '.' then some parts
  else if isFourBytes last then some (parts.dropLast ++ [['0'], ['0']])
  else none

/-- The groups on one side of those left out; a side without groups is empty. -/
def isSide (side : List (List Char)) : Bool := side = [[]] || side.all isGroup

/-- An address of the sixth version without its zone. -/
def isPlainSixth (s : List Char) : Bool :=
  match groups? s with
  | none => false
  | some parts =>
    let gap (i : Nat) : Bool := 0 < i && i + 1 < parts.length && parts[i]? = some []
    match (List.range parts.length).filter gap with
    | [] => parts.length = 8 && parts.all isGroup
    | [i] =>
      let before := parts.take i
      let after := parts.drop (i + 1)
      isSide before && isSide after &&
        (before.filter (· ≠ [])).length + (after.filter (· ≠ [])).length < 8
    | _ => false

def isSixth (s : List Char) : Bool :=
  match s.span (· ≠ '%') with
  | (address, []) => isPlainSixth address
  | (address, _ :: zone) => !zone.isEmpty && !zone.contains '%' && isPlainSixth address

/-- A version to come and an address of it. -/
def isFuture (s : List Char) : Bool :=
  match s with
  | 'v' :: rest =>
    match rest.span isHex with
    | (_ :: _, '.' :: c :: more) => !(c :: more).contains '\n'
    | _ => false
  | _ => false

end PerfReview.Http.Host
