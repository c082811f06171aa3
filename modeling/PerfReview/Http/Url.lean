import PerfReview.Http.Host
import PerfReview.Text.Blank
import PerfReview.Text.Quoted
import PerfReview.Text.Utf8

/-!
# Addresses

A text put into an address is written in the characters that mean nothing there; all other bytes are
escaped. An address is used without white space at its ends. It has to name its scheme; its host may
stand in brackets if it is one that needs them, and holds no character that is a disguise of one of
those that divide an address.
-/

namespace PerfReview.Http

/-- The characters that stand for themselves in any part of an address. -/
def isUnreserved (c : Char) : Bool := c.isAlphanum || c = '_' || c = '.' || c = '-' || c = '~'

def upperHex (n : Nat) : Char := Char.ofNat (if n < 10 then 48 + n else 55 + n)

def percentByte (b : UInt8) : List Char :=
  ['%', upperHex (b.toNat / 16), upperHex (b.toNat % 16)]

/-- A text as a part of an address. -/
def percentEncoded (s : String) : String :=
  String.ofList (s.toList.flatMap fun c =>
    if isUnreserved c then [c] else (Text.encode c.toString).flatMap percentByte)

def withoutSlashes (s : String) : String :=
  String.ofList (s.toList.reverse.dropWhile (· = '/')).reverse

namespace Url

/-- Why an address cannot be used. -/
inductive Fault where
  | noScheme (url : String)
  /-- A bracket without its partner. -/
  | bracket
  | notHost (host : String)
  | notFuture
  /-- The host needs no brackets. -/
  | needless
  | disguised (authority : String)
  deriving DecidableEq, Repr

namespace Fault

def message : Fault → String
  | noScheme url => s!"unknown url type: {Text.quoted url}"
  | bracket => "Invalid IPv6 URL"
  | notHost host => s!"{Text.quoted host} does not appear to be an IPv4 or IPv6 address"
  | notFuture => "IPvFuture address is invalid"
  | needless => "An IPv4 address cannot be in brackets"
  | disguised authority =>
    s!"netloc '{authority}' contains invalid characters under NFKC normalization"

end Fault

/-- An address in the form in which it is used: without white space around it and without the mark
that may stand before it. -/
def cleaned (url : String) : String :=
  let url := Text.strip url
  match Text.afterHead? "URL:" url with
  | some rest => Text.strip rest
  | none => url

/-- An address names its scheme: before the last number sign a colon comes before the first slash,
with something before it. -/
def hasScheme (url : String) : Bool :=
  let cs := url.toList
  let resource := ((Text.splitLast? '#' cs).map (·.1)).getD cs
  match resource.span fun c => c ≠ '/' && c ≠ ':' with
  | (_ :: _, ':' :: _) => true
  | _ => false

def isSchemeChar (c : Char) : Bool := c.isAlphanum || c = '+' || c = '-' || c = '.'

def afterScheme (s : List Char) : List Char :=
  match s.span (· ≠ ':') with
  | (c :: scheme, _ :: rest) => if c.isAlpha && scheme.all isSchemeChar then rest else s
  | _ => s

/-- The part of an address that names the host, with the user and the port. -/
def authority (url : String) : List Char :=
  let s := (url.toList.dropWhile fun c => c.toNat ≤ 0x20).filter fun c =>
    c ≠ '\t' && c ≠ '\n' && c ≠ '\r'
  match afterScheme s with
  | '/' :: '/' :: rest => rest.takeWhile fun c => c ≠ '/' && c ≠ '?' && c ≠ '#'
  | _ => []

/-- The characters that are other forms of a slash, a question mark, a number sign, an at sign or a
colon, or of texts with one of them. -/
def disguises : List Char := [
  '\u2047', '\u2048', '\u2049', '\u2100', '\u2101', '\u2105', '\u2106', '\u2a74', '\ufe13',
  '\ufe16', '\ufe55', '\ufe56', '\ufe5f', '\ufe6b', '\uff03', '\uff0f', '\uff1a', '\uff1f',
  '\uff20']

/-- Why the host in brackets cannot be used, if it cannot. -/
def hostFault? (host : List Char) : Option Fault :=
  if host.head? = some 'v' then if Host.isFuture host then none else some .notFuture
  else if Host.isFourBytes host then some .needless
  else if Host.isSixth host then none
  else some (.notHost (String.ofList host))

/-- Why an address cannot be used, if it cannot. -/
def fault? (url : String) : Option Fault :=
  let a := authority url
  if !hasScheme url then some (.noScheme url)
  else if a.contains '[' ≠ a.contains ']' then some .bracket
  else
    let host := ((a.dropWhile (· ≠ '[')).drop 1).takeWhile (· ≠ ']')
    match if a.contains '[' then hostFault? host else none with
    | some f => some f
    | none => if a.any (disguises.contains ·) then some (.disguised (String.ofList a)) else none

end Url

end PerfReview.Http
