import PerfReview.Assoc
import PerfReview.Number.Reader
import PerfReview.Text.Digit
import PerfReview.Text.Quoted

/-!
# Words of a command line

A level of a command line has flags, which stand anywhere, and at most one place for a plain word; a
command in that place opens the next level, to which all further words belong. A flag may be cut
short as long as it stays unambiguous, its value may follow an equals sign, and flags of one letter
may share a word. After a divider all words are plain; behind an equals sign a divider stands for no
value at all. Words without a place are kept aside; they are reported when the whole line has been
read.

All words of a level are looked up before the first of them is taken up, so an ambiguous flag is
reported before any other mistake of its level.
-/

namespace PerfReview.CommandLine

/-- The word behind which all words are plain. -/
def divider : String := "--"

/-- What a flag does to the options. A flag with a value may be left without one by a divider. -/
inductive Effect (α : Type) where
  | help
  | switch (set : α → α)
  | text (set : Option String → α → α)
  | integer (set : Option Int → α → α)
  /-- One of listed words. -/
  | choice (settings : List (String × (α → α))) (without : α → α)

structure Flag (α : Type) where
  names : List String
  effect : Effect α

/-- The place for a plain word. -/
inductive Slot (α : Type) where
  | closed
  | optional (set : String → α → α)
  | required (name : String) (set : String → α → α)
  | command (name : String) (names : List String)

/-- A level of a command line, with the title under which its mistakes are reported. -/
structure Level (α : Type) where
  title : String
  flags : List (Flag α)
  slot : Slot α

/-- A mistake in a command line. -/
inductive Misuse where
  | ambiguous (word : String) (names : List String)
  | noValue (flag : String)
  | unwantedValue (flag value : String)
  | notChoice (place found : String) (names : List String)
  | notInteger (flag found : String)
  | missing (place : String)
  | unknown (words : List String)
  deriving DecidableEq, Repr

namespace Misuse

def message : Misuse → String
  | ambiguous word names =>
    let names := String.intercalate ", " names
    s!"ambiguous option: {word} could match {names}"
  | noValue flag => s!"argument {flag}: expected one argument"
  | unwantedValue flag value => s!"argument {flag}: ignored explicit argument {Text.quoted value}"
  | notChoice place found names =>
    let names := String.intercalate ", " (names.map Text.quoted)
    s!"argument {place}: invalid choice: {Text.quoted found} (choose from {names})"
  | notInteger flag found => s!"argument {flag}: invalid int value: {Text.quoted found}"
  | missing place => s!"the following arguments are required: {place}"
  | unknown words =>
    let words := String.intercalate " " words
    s!"unrecognized arguments: {words}"

end Misuse

/-- Why a command line is not carried out. -/
inductive Stop where
  | help
  | misuse (title : String) (m : Misuse)
  deriving DecidableEq, Repr

namespace Stop

/-- What is said of a command line that is not carried out; help is shown elsewhere. -/
def message : Stop → String
  | help => ""
  | misuse title m => s!"{title}: error: {m.message}\n"

end Stop

namespace Effect

variable {α : Type}

def takesValue : Effect α → Bool
  | help | switch _ => false
  | _ => true

end Effect

namespace Flag

variable {α : Type}

def label (f : Flag α) : String := String.intercalate "/" f.names

/-- The effect of a flag with the value that follows it. -/
def withValue (f : Flag α) (value : String) (options : α) : Except Misuse α :=
  match f.effect with
  | .text set => .ok (set (if value = divider then none else some value) options)
  | .integer set =>
    if value = divider then .ok (set none options)
    else
      match Number.readInt value with
      | .ok n => .ok (set (some n) options)
      | .error _ => .error (.notInteger f.label value)
  | .choice settings without =>
    if value = divider then .ok (without options)
    else
      match Assoc.get? settings value with
      | some set => .ok (set options)
      | none => .error (.notChoice f.label value (settings.map (·.1)))
  | _ => .error (.unwantedValue f.label value)

end Flag

/-- What a word is on a level. -/
inductive Word (α : Type) where
  | plain (text : String)
  | divider
  /-- A flag, with what follows its name in the word. -/
  | flag (f : Flag α) (name : String) (attached : Option String)
  /-- The form of a flag without being one. -/
  | stranger (text : String)

def isNegativeNumber (word : String) : Bool :=
  match word.toList with
  | '-' :: s =>
    let s := if s.getLast? = some '\n' then s.dropLast else s
    let (whole, rest) := s.span Text.isDigit
    match rest with
    | [] => !whole.isEmpty
    | '.' :: fraction => !fraction.isEmpty && fraction.all Text.isDigit
    | _ => false
  | _ => false

/-- A word cut at its first equals sign, if it has one. -/
def cutAtEquals (word : String) : String × Option String :=
  match word.toList.span (· ≠ '=') with
  | (before, _ :: after) => (String.ofList before, some (String.ofList after))
  | _ => (word, none)

namespace Level

variable {α : Type}

/-- The flags under each of their names, in order. -/
def named (l : Level α) : List (String × Flag α) :=
  l.flags.flatMap fun f => f.names.map fun name => (name, f)

def flag? (l : Level α) (name : String) : Option (Flag α) := Assoc.get? l.named name

/-- The flags that a word may stand for when it is cut short or runs on, with the name of each and
what follows it. -/
def guesses (l : Level α) (word : String) : List (Flag α × String × Option String) :=
  if word.startsWith "--" then
    let (start, attached) := cutAtEquals word
    l.named.filterMap fun (name, f) =>
      if name.startsWith start then some (f, name, attached) else none
  else
    let short := String.ofList (word.toList.take 2)
    let letters := String.ofList (word.toList.drop 2)
    l.named.filterMap fun (name, f) =>
      if name = short then some (f, name, some letters)
      else if name.startsWith word then some (f, name, none)
      else none

/-- What a word with a dash in front is, when it is no flag written in full. -/
def guess (l : Level α) (word : String) : Except Misuse (Word α) :=
  match l.guesses word with
  | [(f, name, attached)] => .ok (.flag f name attached)
  | [] =>
    if isNegativeNumber word || ' ' ∈ word.toList then .ok (.plain word) else .ok (.stranger word)
  | several => .error (.ambiguous word (several.map (·.2.1)))

/-- What a word before the divider is. -/
def word (l : Level α) (word : String) : Except Misuse (Word α) :=
  if !word.startsWith "-" then .ok (.plain word)
  else
    match l.flag? word with
    | some f => .ok (.flag f word none)
    | none =>
      if word = "-" then .ok (.plain word)
      else
        let (name, attached) := cutAtEquals word
        match l.flag? name with
        | some f => .ok (.flag f name attached)
        | none => l.guess word

def words (l : Level α) : List String → Except Misuse (List (String × Word α))
  | [] => .ok []
  | "--" :: rest => .ok (("--", .divider) :: rest.map fun w => (w, .plain w))
  | w :: rest => do
    let first ← l.word w
    return (w, first) :: (← l.words rest)

/-- The flags of one word: those without a value in front, and the last one with the value that the
word holds for it. -/
structure Opened (α : Type) where
  switches : List (Flag α) := []
  last : Flag α
  value : Option String := none

/-- The last flag of the word waits for a value in the next word. -/
def Opened.awaits (o : Opened α) : Bool := o.value.isNone && o.last.effect.takesValue

/-- Opens what follows a flag in its word: the value of the flag if it takes one, else the letters of
further flags of one letter. -/
def unfold (l : Level α) (f : Flag α) (isLong : Bool) : List Char → Except Misuse (Opened α)
  | [] => if f.effect.takesValue then .ok ⟨[], f, some ""⟩ else .error (.unwantedValue f.label "")
  | c :: rest =>
    let text := String.ofList (c :: rest)
    if f.effect.takesValue then .ok ⟨[], f, some text⟩
    else
      match if isLong then none else l.flag? (String.ofList ['-', c]) with
      | none => .error (.unwantedValue f.label text)
      | some next =>
        let opened : Except Misuse (Opened α) :=
          match rest with
          | [] => .ok ⟨[], next, none⟩
          | rest => l.unfold next false rest
        opened.map fun o => { o with switches := f :: o.switches }

def opened (l : Level α) (f : Flag α) (name : String) : Option String → Except Misuse (Opened α)
  | none => .ok ⟨[], f, none⟩
  | some text => l.unfold f (name.startsWith "--") text.toList

/-- What a level makes of its words. -/
structure Reading (α : Type) where
  options : α
  /-- The words without a place. -/
  extras : List String := []
  /-- The command that opens the next level, with the words of that level. -/
  command : Option (String × List String) := none
  /-- The place for a plain word is taken. -/
  taken : Bool := false

def misused (l : Level α) (m : Misuse) : Stop := .misuse l.title m

/-- Takes up flags without a value. -/
def switched (fs : List (Flag α)) (options : α) : Except Stop α :=
  fs.foldlM (fun o f =>
    match f.effect with
    | .help => .error .help
    | .switch set => .ok (set o)
    | _ => .ok o) options

/-- Puts a plain word into the place of the level, unless it is taken. -/
def withPlain (l : Level α) (text : String) (rest : List String) (r : Reading α) :
    Except Stop (Reading α) :=
  let aside : Reading α := { r with extras := r.extras ++ [text] }
  if r.taken then .ok aside
  else
    match l.slot with
    | .closed => .ok aside
    | .optional set | .required _ set => .ok { r with options := set text r.options, taken := true }
    | .command name names =>
      if text ∈ names then .ok { r with command := some (text, rest), taken := true }
      else .error (l.misused (.notChoice name text names))

/-- The level has a place that is not taken and that no command fills. -/
def hasRoom (l : Level α) (r : Reading α) : Bool :=
  !r.taken && match l.slot with | .optional _ | .required _ _ => true | _ => false

/-- Puts a divider where it belongs: it goes with the word that takes the place of the level, or
with an optional place at the end of the line. -/
def withDivider (l : Level α) (rest : List String) (r : Reading α) : Except Stop (Reading α) :=
  let aside : Reading α := { r with extras := r.extras ++ ["--"] }
  match rest with
  | [] =>
    match l.slot with
    | .optional _ => .ok (if r.taken then aside else r)
    | _ => .ok aside
  | _ :: _ =>
    if l.hasRoom r then .ok r
    else
      match l.slot with
      | .command name names =>
        if r.taken then .ok aside else .error (l.misused (.notChoice name "--" names))
      | _ => .ok aside

/-- What the flags of a word make of the options, where no further word belongs to it. -/
def withOpened (l : Level α) (o : Opened α) (r : Reading α) : Except Stop (Reading α) := do
  let options ← switched o.switches r.options
  match o.value with
  | some value => return { r with options := ← (o.last.withValue value options).mapError l.misused }
  | none => return { r with options := ← switched [o.last] options }

/-- Takes up words from left to right; a command ends the reading of the level. -/
def walk (l : Level α) : List (String × Word α) → Reading α → Except Stop (Reading α)
  | [], r => .ok r
  | (_, .plain text) :: rest, r =>
    match l.withPlain text (rest.map (·.1)) r with
    | .error e => .error e
    | .ok r' =>
      if r'.command.isSome then .ok r'
      else
        match rest with
        | (d, .divider) :: rest =>
          if l.hasRoom r then l.walk rest r' else l.walk ((d, .divider) :: rest) r'
        | rest => l.walk rest r'
  | (_, .divider) :: rest, r =>
    match l.withDivider (rest.map (·.1)) r with
    | .error e => .error e
    | .ok r => l.walk rest r
  | (text, .stranger _) :: rest, r => l.walk rest { r with extras := r.extras ++ [text] }
  | (_, .flag f name attached) :: rest, r =>
    match l.opened f name attached with
    | .error m => .error (l.misused m)
    | .ok o =>
      match o.awaits, rest with
      | false, rest =>
        match l.withOpened o r with
        | .error e => .error e
        | .ok r => l.walk rest r
      | true, (_, .plain value) :: rest =>
        match l.withOpened { o with value := some value } r with
        | .error e => .error e
        | .ok r => l.walk rest r
      | true, _ => .error (l.misused (.noValue o.last.label))

/-- Reads the words of a level, with options that hold where no word sets them. -/
def read (l : Level α) (options : α) (args : List String) : Except Stop (Reading α) := do
  let words ← (l.words args).mapError l.misused
  let r ← l.walk words { options }
  match l.slot with
  | .required name _ | .command name _ =>
    if r.taken then return r else .error (l.misused (.missing name))
  | _ => return r

end Level

end PerfReview.CommandLine
