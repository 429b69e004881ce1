import Provision.Text.Blank
import Provision.Text.Digits
import Provision.Text.Letters

/-! # Regular expressions

Which texts are regular expressions. An expression is about characters; where the flag `u` is taken back it is
about octets, but still must not match what is no character. The classes that letters name after a backslash,
word boundaries and the equality of capital and small letters exist for octets only, and there are no counted
repetitions.

* `Expression.isWellFormed` — whether a text is a regular expression.
* `Expression.step` — one item of it, `Expression.scan` — all of them.
-/

namespace Provision.Text.Expression

/-! ## The state of a reading -/

/-- How items are read up to the end of a group. -/
structure Mode where
  isUnicode : Bool
  ignoresCase : Bool
  ignoresBlanks : Bool
  deriving DecidableEq, Repr

/-- A place in a class, by what may stand there. -/
inductive Place where
  /-- Right after the bracket. A caret asks for the complement. -/
  | opened
  /-- Before the first item. A closing bracket or a dash stands for itself. -/
  | blank
  /-- After nothing but dashes. One more stands for itself. -/
  | dashed
  /-- Where no range can continue. -/
  | plain
  /-- After an item. A dash makes it the start of a range, which only a character can be. -/
  | after (low : Option Char)
  /-- After the dash of a range. -/
  | ranging (low : Char)
  deriving DecidableEq, Repr

/-- What is known between two items. -/
structure State where
  mode : Mode
  /-- The modes around the open groups, the innermost first. -/
  around : List Mode
  /-- The names of groups. -/
  names : List (List Char)
  /-- Whether there is something to repeat. -/
  isRepeatable : Bool
  /-- How many classes are open, one within the other. -/
  classes : Nat
  /-- The place in the innermost of them. -/
  place : Place
  deriving DecidableEq, Repr

/-- Before the first item. -/
def State.initial : State := ⟨⟨true, false, false⟩, [], [], false, 0, .plain⟩

def State.isComplete (s : State) : Bool := s.around.isEmpty && s.classes = 0

/-- What follows a step: the state, and how many characters the step takes beyond its first. -/
abbrev Step := Option (State × Nat)

/-! ## Blanks -/

/-- How many characters there are up to one that counts: blanks, and comments up to the ends of their
    lines. -/
def overlooked (inComment : Bool) : List Char → Nat
  | [] => 0
  | c :: rest =>
    if inComment then overlooked (c ≠ '\n') rest + 1
    else if c = '#' then overlooked true rest + 1
    else if isBlank c then overlooked false rest + 1
    else 0

/-- The text from the next character that counts. -/
def Mode.next (m : Mode) (cs : List Char) : List Char :=
  if m.ignoresBlanks then cs.drop (overlooked false cs) else cs

theorem Mode.length_next_le (m : Mode) (cs : List Char) : (m.next cs).length ≤ cs.length := by
  unfold Mode.next
  split <;> simp

/-! ## Items -/

/-- What an item stands for. -/
inductive Item where
  | literal (c : Char)
  /-- One of a named set of characters. -/
  | kind
  /-- A place between characters. -/
  | position
  deriving DecidableEq, Repr

/-- Whether characters can stand for themselves. -/
def Mode.hasLiterals (m : Mode) : Bool := !(m.isUnicode && m.ignoresCase)

/-- Whether a character can stand for itself in a class. -/
def Mode.hasMember (m : Mode) (c : Char) : Bool := m.hasLiterals && (m.isUnicode || c.toNat < 0x80)

/-- Whether there are complements of classes. Of octets they are more than ASCII characters. -/
def Mode.hasComplements (m : Mode) : Bool := m.isUnicode

/-- Whether there is a named class of ASCII characters, or its complement. -/
def Mode.hasClass (m : Mode) (isComplement : Bool) : Bool :=
  m.hasLiterals && (!isComplement || m.hasComplements)

/-- The character whose number stands in so many hexadecimal digits. -/
def numbered? (width : Nat) (cs : List Char) : Option Char :=
  let digits := cs.take width
  let n := number 16 digits
  if digits.length = width && digits.all isHexDigit && n.isValidChar then some (Char.ofNat n) else none

/-- Whether a character stands for itself after a backslash. -/
def isEscapable (c : Char) : Bool :=
  c.toNat < 0x80 && !c.isAlphanum && c ≠ '<' && c ≠ '>'

/-- The control characters that have a letter. -/
def lettered : List (Char × Char) :=
  [('a', '\x07'), ('f', '\x0c'), ('t', '\t'), ('n', '\n'), ('r', '\r'), ('v', '\x0b')]

/-- An item after a backslash, and how many characters of the text it takes. -/
def escape? (m : Mode) : List Char → Option (Item × Nat)
  | [] => none
  | c :: rest =>
    if c = 'x' then
      (((numbered? 2 rest).filter fun c => m.isUnicode || c.toNat < 0x80).map (.literal ·, 3))
    else if c = 'u' then (numbered? 4 rest).map (.literal ·, 5)
    else if c = 'U' then (numbered? 8 rest).map (.literal ·, 9)
    else if c ∈ ['d', 's', 'w'] then if m.isUnicode then none else some (.kind, 1)
    else if c ∈ ['b', 'B', '<', '>'] then if m.isUnicode then none else some (.position, 1)
    else if c ∈ ['A', 'z'] then some (.position, 1)
    else if isEscapable c then some (.literal c, 1)
    else (lettered.lookup c).map (.literal ·, 1)

/-- An item that starts with a character, and how many further ones it takes. -/
def item? (m : Mode) (c : Char) (rest : List Char) : Option (Item × Nat) :=
  if c = '\\' then escape? m rest else some (.literal c, 0)

/-! ## Groups -/

/-- The flags of a group: letters, of which a dash takes back those after it. -/
def areFlags (flags : List Char) : Bool :=
  flags.all (· ∈ ['i', 'm', 's', 'u', 'U', 'R', 'x', '-']) && flags.Nodup && flags.getLast? ≠ some '-'

/-- Whether a flag holds, given whether it did before. -/
def flagged (flags : List Char) (flag : Char) (before : Bool) : Bool :=
  if flag ∈ flags.takeWhile (· ≠ '-') then true
  else if flag ∈ flags then false
  else before

def Mode.under (m : Mode) (flags : List Char) : Mode :=
  ⟨flagged flags 'u' m.isUnicode, flagged flags 'i' m.ignoresCase, flagged flags 'x' m.ignoresBlanks⟩

def isGroupName : List Char → Bool
  | [] => false
  | first :: rest =>
    (first = '_' || isAlphabetic first) && rest.all fun c => c ∈ ['_', '.', '[', ']'] || isAlphanumeric c

/-- A group that opens, with the mode in it. -/
def State.group (s : State) (m : Mode) (taken : Nat) : Step :=
  some ({ s with mode := m, around := s.mode :: s.around, isRepeatable := false }, taken)

/-- A group with a name, which starts after so many characters. -/
def State.namedGroup (s : State) (rest : List Char) (start : Nat) : Step :=
  let name := rest.takeWhile (· ≠ '>')
  if name.length < rest.length && isGroupName name && name ∉ s.names then
    State.group { s with names := name :: s.names } s.mode (start + name.length + 1)
  else none

/-- What follows an opening parenthesis: a group, or flags up to the end of the group around them. Nothing
    looks ahead or behind. -/
def State.opening (s : State) : List Char → Step
  | '?' :: '=' :: _ | '?' :: '!' :: _ | '?' :: '<' :: '=' :: _ | '?' :: '<' :: '!' :: _ => none
  | '?' :: 'P' :: '<' :: rest => s.namedGroup rest 3
  | '?' :: '<' :: rest => s.namedGroup rest 2
  | '?' :: rest =>
    let flags := rest.takeWhile fun c => c ≠ ':' && c ≠ ')'
    if !areFlags flags then none
    else match rest.drop flags.length with
      | ':' :: _ => s.group (s.mode.under flags) (flags.length + 2)
      | ')' :: _ =>
        if flags.isEmpty then none
        else some ({ s with mode := s.mode.under flags, isRepeatable := false }, flags.length + 2)
      | _ => none
  | _ => s.group s.mode 0

/-! ## Classes -/

def classNames : List String :=
  ["alnum", "alpha", "ascii", "blank", "cntrl", "digit", "graph", "lower", "print", "punct", "space",
    "upper", "word", "xdigit"]

/-- A named class after its bracket: whether it is the complement, and how many characters it takes. -/
def namedClass? : List Char → Option (Bool × Nat)
  | ':' :: rest =>
    let isComplement := rest.head? = some '^'
    let start := if isComplement then 1 else 0
    let name := (rest.drop start).takeWhile (· ≠ ':')
    if String.ofList name ∈ classNames && (rest.drop (start + name.length)).take 2 = [':', ']'] then
      some (isComplement, start + name.length + 3)
    else none
  | _ => none

/-- The next place in the innermost class. -/
def State.at (s : State) (place : Place) (taken : Nat) : Step := some ({ s with place }, taken)

/-- A class that opens. -/
def State.openClass (s : State) : Step := some ({ s with classes := s.classes + 1, place := .opened }, 0)

/-- A class that closes. -/
def State.closeClass (s : State) : Step :=
  some ({ s with classes := s.classes - 1, place := .plain, isRepeatable := true }, 0)

/-- An item of a class. -/
def State.member (s : State) (c : Char) (rest : List Char) : Step :=
  match item? s.mode c rest, s.place with
  | some (.literal high, taken), .ranging low =>
    if low ≤ high && s.mode.hasMember high then s.at .plain taken else none
  | _, .ranging _ => none
  | some (.literal c, taken), _ => if s.mode.hasMember c then s.at (.after (some c)) taken else none
  | some (.kind, taken), _ => s.at (.after none) taken
  | _, _ => none

/-- A dash in a class: of a range, of a difference, or one that stands for itself. -/
def State.dash (s : State) (rest : List Char) : Step :=
  match s.place, (s.mode.next rest).head? with
  | .opened, _ | .blank, _ | .dashed, _ => if s.mode.hasLiterals then s.at .dashed 0 else none
  | .after low, some next =>
    if next ≠ ']' && next ≠ '-' then low.bind fun low => s.at (.ranging low) 0
    else if rest.head? = some '-' then s.at .plain 1
    else s.member '-' rest
  | _, _ => if rest.head? = some '-' then s.at .plain 1 else s.member '-' rest

/-- A character of a class, and the text after it. -/
def State.inClass (s : State) (c : Char) (rest : List Char) : Step :=
  match s.place, c with
  | .ranging _, c => s.member c rest
  | .opened, '^' => if s.mode.hasComplements then s.at .blank 0 else none
  | _, '-' => s.dash rest
  | .opened, ']' | .blank, ']' => if s.mode.hasLiterals then s.at .plain 0 else none
  | _, ']' => s.closeClass
  | _, '[' =>
    match namedClass? rest with
    | some (isComplement, taken) => if s.mode.hasClass isComplement then s.at .plain taken else none
    | none => s.openClass
  | _, c =>
    if (c = '&' || c = '~') && rest.head? = some c then s.at .plain 1 else s.member c rest

/-! ## Expressions -/

/-- Something that can be repeated, taking so many further characters. -/
def State.repeatable (s : State) (taken : Nat) : Step := some ({ s with isRepeatable := true }, taken)

/-- A character outside classes, and the text after it. -/
def State.outside (s : State) (c : Char) (rest : List Char) : Step :=
  match c with
  | '(' =>
    let inner := s.mode.next rest
    (s.opening inner).map fun (s, taken) => (s, rest.length - inner.length + taken)
  | ')' =>
    match s.around with
    | [] => none
    | m :: around => State.repeatable { s with mode := m, around } 0
  | '[' => s.openClass
  | '|' => some ({ s with isRepeatable := false }, 0)
  | '?' | '*' | '+' =>
    if s.isRepeatable then s.repeatable (if rest.head? = some '?' then 1 else 0) else none
  | '{' => none
  | '.' => if s.mode.isUnicode then s.repeatable 0 else none
  | '^' | '$' => s.repeatable 0
  | c =>
    match item? s.mode c rest with
    | some (.literal _, taken) => if s.mode.hasLiterals then s.repeatable taken else none
    | some (_, taken) => s.repeatable taken
    | none => none

/-- A character that counts, and the text after it. -/
def step (s : State) (c : Char) (rest : List Char) : Step :=
  if s.classes = 0 then s.outside c rest else s.inClass c rest

def scan (s : State) (cs : List Char) : Bool :=
  match _h : s.mode.next cs with
  | [] => s.isComplete
  | c :: rest =>
    match step s c rest with
    | some (next, taken) => scan next (rest.drop taken)
    | none => false
termination_by cs.length
decreasing_by
  have hle := s.mode.length_next_le cs
  rw [_h, List.length_cons] at hle
  rw [List.length_drop]
  omega

def isWellFormed (text : String) : Bool := scan .initial text.toList

end Provision.Text.Expression
