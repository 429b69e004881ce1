import Provision.Json

/-! # Reading a JSON document

What any reader of JSON makes of a text, by the grammar of the format alone: blanks may stand around every token, and a
character of a text may be written as itself or as an escape, one beyond the first plane as a pair of them. Of numbers, only
natural ones are taken.

* `text?`, `number?` — single values.
* `listed?` — what is listed between brackets, with commas between.
* `value?` — a document at the front of some characters; `read?` — the document that a text is.
-/

namespace Provision.JsonReader

/-! ## Texts -/

/-- Whether a character may stand between tokens. -/
def isSpace (c : Char) : Bool := c = ' ' || c = '\t' || c = '\n' || c = '\r'

def skipSpace (cs : List Char) : List Char := cs.dropWhile isSpace

/-- The code unit that four hexadecimal digits write, and what follows them. -/
def unit? : List Char → Option (Nat × List Char)
  | a :: b :: c :: d :: rest =>
    if [a, b, c, d].all Text.isHexDigit then some (Text.number 16 [a, b, c, d], rest) else none
  | _ => none

/-- The character that one code unit stands for, or a pair of them. -/
def char16? (cs : List Char) : Option (Char × List Char) :=
  match unit? cs with
  | some (high, rest) =>
    if 0xD800 ≤ high ∧ high < 0xDC00 then
      match rest with
      | '\\' :: 'u' :: rest =>
        match unit? rest with
        | some (low, rest) =>
          if 0xDC00 ≤ low ∧ low < 0xE000 then
            some (Char.ofNat (0x10000 + (high - 0xD800) * 0x400 + (low - 0xDC00)), rest)
          else none
        | none => none
      | _ => none
    else if 0xDC00 ≤ high ∧ high < 0xE000 then none
    else some (Char.ofNat high, rest)
  | none => none

/-- The character of an escape, behind the mark of it. -/
def escape? : List Char → Option (Char × List Char)
  | '"' :: rest => some ('"', rest)
  | '\\' :: rest => some ('\\', rest)
  | '/' :: rest => some ('/', rest)
  | 'b' :: rest => some ('\x08', rest)
  | 'f' :: rest => some ('\x0c', rest)
  | 'n' :: rest => some ('\n', rest)
  | 'r' :: rest => some ('\r', rest)
  | 't' :: rest => some ('\t', rest)
  | 'u' :: rest => char16? rest
  | _ => none

/-- The character in front of the rest of a text. -/
def char? : List Char → Option (Char × List Char)
  | [] => none
  | c :: rest =>
    if c = '\\' then escape? rest
    else if c = '"' ∨ c < ' ' then none
    else some (c, rest)

/-- The characters up to a quotation mark, and what follows this. -/
def chars? (cs : List Char) : Option (List Char × List Char) :=
  if cs.head? = some '"' then some ([], cs.tail)
  else match char? cs with
    | none => none
    | some (c, rest) =>
      if _h : rest.length < cs.length then (chars? rest).map fun (text, rest) => (c :: text, rest) else none
termination_by cs.length

def text? : List Char → Option (String × List Char)
  | '"' :: cs => (chars? cs).map fun (text, rest) => (String.ofList text, rest)
  | _ => none

/-! ## Values -/

/-- The number that decimal digits write. The first of several digits is no zero. -/
def number? (cs : List Char) : Option (Nat × List Char) :=
  let digits := cs.takeWhile Char.isDigit
  if digits = [] ∨ digits.head? = some '0' ∧ digits ≠ ['0'] then none
  else some (Nat.ofDigitChars 10 digits 0, cs.drop digits.length)

section Listed

variable {α : Type} (item? : List Char → Option (α × List Char)) (close : Char)

/-- One item or several, with commas between and a bracket at the end. -/
def items? (cs : List Char) : Option (List α × List Char) :=
  match item? (skipSpace cs) with
  | none => none
  | some (a, rest) =>
    match skipSpace rest with
    | [] => none
    | c :: rest =>
      if c = close then some ([a], rest)
      else if _h : c = ',' ∧ rest.length < cs.length then (items? rest).map fun (as, rest) => (a :: as, rest)
      else none
termination_by cs.length
decreasing_by exact _h.2

/-- Items with commas between, if there are any, and a bracket at the end. -/
def listed? (cs : List Char) : Option (List α × List Char) :=
  if (skipSpace cs).head? = some close then some ([], (skipSpace cs).tail) else items? item? close cs

end Listed

/-- A text and a value with a colon between. -/
def member? (value? : List Char → Option (Json × List Char)) (cs : List Char) :
    Option ((String × Json) × List Char) :=
  match text? cs with
  | none => none
  | some (key, rest) =>
    match skipSpace rest with
    | ':' :: rest => (value? (skipSpace rest)).map fun (value, rest) => ((key, value), rest)
    | _ => none

/-- The document in front, of no more than the given levels, and what follows it. -/
def value? : Nat → List Char → Option (Json × List Char)
  | 0, _ => none
  | levels + 1, cs =>
    match cs with
    | 't' :: 'r' :: 'u' :: 'e' :: rest => some (.bool true, rest)
    | 'f' :: 'a' :: 'l' :: 's' :: 'e' :: rest => some (.bool false, rest)
    | '"' :: _ => (text? cs).map fun (text, rest) => (.string text, rest)
    | '[' :: rest => (listed? (value? levels) ']' rest).map fun (items, rest) => (.array items, rest)
    | '\x7b' :: rest => (listed? (member? (value? levels)) '\x7d' rest).map fun (members, rest) => (.object members, rest)
    | _ => (number? cs).map fun (n, rest) => (.number n, rest)

/-- The document that a text is. It has no more levels than the text has characters. -/
def read? (text : String) : Option Json :=
  match value? (text.length + 1) (skipSpace text.toList) with
  | some (document, rest) => if skipSpace rest = [] then some document else none
  | none => none

end Provision.JsonReader
