import Provision.Text.Digits

/-! # JSON documents

The part of JSON that plans are written in, and its printer: two blanks per level, one item per line.

* `Json.quoted` — a text in quotation marks, with the escapes that JSON asks for and no others.
* `Json.pretty` — a document.
-/

namespace Provision

open Text

/-- A document of natural numbers, texts and truth values. -/
inductive Json where
  | bool (value : Bool)
  | number (value : Nat)
  | string (value : String)
  | array (items : List Json)
  | object (members : List (String × Json))

namespace Json

def escapedChar (c : Char) : String :=
  match c with
  | '"' => "\\\""
  | '\\' => "\\\\"
  | '\x08' => "\\b"
  | '\x0c' => "\\f"
  | '\n' => "\\n"
  | '\r' => "\\r"
  | '\t' => "\\t"
  | c => if c < ' ' then "\\u" ++ padded 4 '0' (hex c.toNat) else c.toString

def quoted (s : String) : String :=
  "\"" ++ String.join (s.toList.map escapedChar) ++ "\""

/-- A line end and the blanks of a level. -/
def newline (level : Nat) : String := "\n" ++ String.ofList (List.replicate (2 * level) ' ')

mutual

/-- A document that starts at a level of indentation. -/
def prettyAt (level : Nat) : Json → String
  | .bool value => if value then "true" else "false"
  | .number value => toString value
  | .string value => quoted value
  | .array [] => "[]"
  | .array (item :: items) =>
    "[" ++ newline (level + 1) ++ prettyAt (level + 1) item ++ prettyItems (level + 1) items
      ++ newline level ++ "]"
  | .object [] => "\x7b\x7d"
  | .object ((key, value) :: members) =>
    "\x7b" ++ newline (level + 1) ++ quoted key ++ ": " ++ prettyAt (level + 1) value
      ++ prettyMembers (level + 1) members ++ newline level ++ "\x7d"

/-- The items after the first. -/
def prettyItems (level : Nat) : List Json → String
  | [] => ""
  | item :: items => "," ++ newline level ++ prettyAt level item ++ prettyItems level items

/-- The members after the first. -/
def prettyMembers (level : Nat) : List (String × Json) → String
  | [] => ""
  | (key, value) :: members =>
    "," ++ newline level ++ quoted key ++ ": " ++ prettyAt level value ++ prettyMembers level members

end

def pretty (document : Json) : String := prettyAt 0 document

end Json

end Provision
