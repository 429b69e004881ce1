import Provision.Command.Filter

/-! # Console lines

Notes and failures as lines of text.

* `Note.line` — the line of a note, without the colours that a terminal would show.
* `Failure` — why a run fails, from the outermost cause inwards; `Failure.line`, `Failure.report`.
-/

namespace Provision

/-! ## Colours -/

/-- What the last characters were part of. -/
inductive Scan where
  | text
  | escape
  | control
  deriving DecidableEq, Repr

/-- Characters without the escape sequences of a terminal. One in brackets ends with a letter or the
    like; any other is one character long. -/
def withoutEscapes : Scan → List Char → List Char
  | _, [] => []
  | .text, c :: rest =>
    if c = '\x1b' then withoutEscapes .escape rest else c :: withoutEscapes .text rest
  | .escape, c :: rest => withoutEscapes (if c = '[' then .control else .text) rest
  | .control, c :: rest => withoutEscapes (if '@' ≤ c ∧ c ≤ '~' then .text else .control) rest

/-- A text without the escape sequences of a terminal. -/
def plainText (s : String) : String := String.ofList (withoutEscapes .text s.toList)

/-- The line of a note for a terminal. -/
def Note.colouredLine (n : Note) : String :=
  match n.level, n.topic with
  | .error, _ => s!"\x1b[31mERROR\x1b[0m {n.text}"
  | .warn, _ => s!"\x1b[33mWARN\x1b[0m  {n.text}"
  | .info, .stage => s!"\x1b[1;34m==>\x1b[0m \x1b[1m{n.text}\x1b[0m"
  | .info, _ => s!"  {n.text}"
  | .debug, _ | .trace, _ => s!"  \x1b[2m{n.text}\x1b[0m"

def Note.line (n : Note) : String := plainText n.colouredLine

/-- The lines of the notes that a filter lets pass. -/
def shownLines (f : Filter) (notes : List Note) : String :=
  String.join ((notes.filter f.shows).map fun n => n.line ++ "\n")

/-! ## Failures -/

/-- Why a run fails. -/
structure Failure where
  message : String
  /-- What lies beneath, from the outside inwards. -/
  causes : List String
  deriving DecidableEq, Repr

namespace Failure

/-- The failure and its causes in one line. -/
def line (f : Failure) : String := ": ".intercalate (f.message :: f.causes)

/-- A text with all lines but the first moved in. -/
def indented (width : Nat) (s : String) : String :=
  String.ofList (s.toList.flatMap fun c =>
    if c = '\n' then '\n' :: List.replicate width ' ' else [c])

/-- The lines of causes, which are numbered if there are several. -/
def causeLines : List String → List String
  | [cause] => ["    " ++ indented 4 cause]
  | causes => causes.zipIdx.map fun (cause, n) =>
    Text.padded 5 ' ' (toString n) ++ ": " ++ indented 7 cause

def report (f : Failure) : String :=
  let causes := if f.causes.isEmpty then ""
    else "\n\nCaused by:\n" ++ "\n".intercalate (causeLines f.causes)
  s!"Error: {f.message}{causes}\n"

end Failure

end Provision
