import Provision.Text.Digits
import Provision.Text.Printable

/-! # Text in quotation marks

A text as messages quote it: between quotation marks, with everything that cannot be seen, or that
joins the character before it, written as an escape.
-/

namespace Provision.Text

def quotedChar (c : Char) : String :=
  match c with
  | '\x00' => "\\0"
  | '\t' => "\\t"
  | '\r' => "\\r"
  | '\n' => "\\n"
  | '"' => "\\\""
  | '\\' => "\\\\"
  | c => if isVisible c then c.toString else "\\u\x7b" ++ hex c.toNat ++ "\x7d"

def quoted (s : String) : String := "\"" ++ String.join (s.toList.map quotedChar) ++ "\""

end Provision.Text
