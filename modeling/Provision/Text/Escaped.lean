import Provision.Text.Digits

/-! # Text in printable ASCII

A text with everything outside printable ASCII written as an escape, so that it can stand inside
quotation marks in a message.
-/

namespace Provision.Text

/-- A character in printable ASCII: tab, line ends, quotes and the backslash by their short escape,
    other printable characters as they are, the rest by code point in hexadecimal. -/
def escapedChar (c : Char) : String :=
  match c with
  | '\t' => "\\t"
  | '\r' => "\\r"
  | '\n' => "\\n"
  | '\'' => "\\'"
  | '"' => "\\\""
  | '\\' => "\\\\"
  | c => if ' ' ≤ c && c ≤ '~' then c.toString else "\\u\x7b" ++ hex c.toNat ++ "\x7d"

/-- A text in printable ASCII. -/
def escaped (s : String) : String :=
  String.join (s.toList.map escapedChar)

end Provision.Text
