import Provision.Text.Binary64
import Provision.Toml.Reader

/-! # Texts, numbers and dates

* `Scalar.text` — the four kinds of quoted text.
* `Scalar.integer`, `Scalar.float`, `Scalar.datetime` — what starts with a digit or a sign.
-/

namespace Provision.Toml.Scalar

open Provision.Text Reader

/-! ## Characters -/

def isBlank (c : Char) : Bool := c = ' ' || c = '\t'

/-- What may stand in comments and quoted texts: no control character but the tab. -/
def isPlain (c : Char) : Bool := c = '\t' || (' ' ≤ c && c ≠ '\x7f')

def blanks : Reader Unit := skip (run isBlank)

/-- A line end: a line feed, with or without a carriage return before it. -/
def newline : Reader Unit := char '\n' <|> exactly "\r\n"

/-! ## Quoted texts -/

/-- A character by its number in so many hexadecimal digits. -/
def codePoint (digits : Nat) : Reader Char := do
  let n := number 16 (← count isHexDigit digits)
  if n.isValidChar then return Char.ofNat n else failure

/-- What follows a backslash. -/
def escape : Reader Char := do
  match ← one fun _ => true with
  | 'b' => return '\x08'
  | 'f' => return '\x0c'
  | 'n' => return '\n'
  | 'r' => return '\r'
  | 't' => return '\t'
  | '"' => return '"'
  | '\\' => return '\\'
  | 'u' => codePoint 4
  | 'U' => codePoint 8
  | _ => failure

/-- A piece of a text between quotation marks. -/
def basicPiece : Reader (List Char) :=
  run1 (fun c => isPlain c && c ≠ '"' && c ≠ '\\') <|> do
    char '\\'
    return [← escape]

/-- A text between quotation marks, with escapes. -/
def basic : Reader String := do
  char '"'
  let pieces ← many basicPiece
  char '"'
  return String.ofList pieces.flatten

/-- A text between apostrophes, as it stands. -/
def literal : Reader String := do
  char '\''
  let cs ← run fun c => isPlain c && c ≠ '\''
  char '\''
  return String.ofList cs

/-- A backslash before a line end: the line end and all white space behind it are nothing. -/
def continuation : Reader (List Char) := do
  char '\\'
  blanks
  newline
  skip (many (skip (run1 isBlank) <|> newline))
  return []

/-- A line end inside a text. -/
def innerNewline : Reader (List Char) := do
  newline
  return ['\n']

/-- The quotes that end a text of several lines; up to two more before them belong to it. -/
def closing (quote : Char) : Reader (List Char) := do
  count (· = quote) 3 |> skip
  let more ← run (· = quote)
  if more.length ≤ 2 then return more else failure

/-- One or two quotes inside a text. -/
def innerQuotes (quote : Char) : Reader (List Char) := do
  let quotes ← run1 (· = quote)
  if quotes.length ≤ 2 then return quotes else failure

/-- A text of several lines between three quotes; a line end right at the start is dropped. -/
def multiline (quote : Char) (piece : Reader (List Char)) : Reader String := do
  skip (count (· = quote) 3)
  skip (opt newline)
  let pieces ← many (piece <|> innerQuotes quote)
  let last ← closing quote
  return String.ofList (pieces.flatten ++ last)

/-- A text of several lines, with escapes. -/
def multilineBasic : Reader String :=
  multiline '"' (run1 (fun c => isPlain c && c ≠ '"' && c ≠ '\\') <|> continuation <|> innerNewline
    <|> do
      char '\\'
      return [← escape])

/-- A text of several lines, as it stands. -/
def multilineLiteral : Reader String :=
  multiline '\'' (run1 (fun c => isPlain c && c ≠ '\'') <|> innerNewline)

def line : Reader String := basic <|> literal

def text : Reader String := multilineBasic <|> multilineLiteral <|> line

/-! ## Numbers -/

/-- Digits of a class, with single underscores between them. -/
def digits (isDigitOf : Char → Bool) : Reader (List Char) := do
  let first ← one isDigitOf
  let more ← many do
    skip (opt (char '_'))
    one isDigitOf
  return first :: more

/-- A sign; whether it is a minus. -/
def sign : Reader Bool := do
  match ← opt (one fun c => c = '+' || c = '-') with
  | some c => return c = '-'
  | none => return false

/-- A decimal number without leading zeros: whether it is negative, and its digits. -/
def decimalDigits : Reader (Bool × List Char) := do
  let negative ← sign
  match ← peek? with
  | some '0' =>
    char '0'
    return (negative, ['0'])
  | _ => return (negative, ← digits isDigit)

/-- Whether a number fits into 64 bits with a sign. -/
def isWord (n : Int) : Bool := -0x8000000000000000 ≤ n && n < 0x8000000000000000

/-- A number behind a mark for its base. -/
def based (mark : String) (base : Nat) (isDigitOf : Char → Bool) : Reader Int := do
  exactly mark
  return number base (← digits isDigitOf)

def decimalInteger : Reader Int := do
  let (negative, cs) ← decimalDigits
  let n : Int := number 10 cs
  return if negative then -n else n

def integer : Reader Int :=
  filter (based "0x" 16 isHexDigit <|> based "0o" 8 (fun c => '0' ≤ c && c ≤ '7')
    <|> based "0b" 2 (fun c => c = '0' || c = '1') <|> decimalInteger) isWord

def exponent : Reader Int := do
  skip (one fun c => c = 'e' || c = 'E')
  let negative ← sign
  let n : Int := number 10 (← digits isDigit)
  return if negative then -n else n

def fraction : Reader (List Char) := do
  char '.'
  digits isDigit

/-- A number with a fraction, an exponent, or both. -/
def decimalFloat : Reader Binary64 := do
  let (negative, whole) ← decimalDigits
  match ← opt fraction with
  | some decimals =>
    let power := (← opt exponent).getD 0
    return .ofDecimal negative (number 10 (whole ++ decimals)) (power - decimals.length)
  | none => return .ofDecimal negative (number 10 whole) (← exponent)

/-- The numbers that have names. -/
def namedFloat : Reader Binary64 := do
  let negative ← sign
  (do exactly "inf"; return .infinite negative) <|> (do exactly "nan"; return .nan)

/-- A number too large for the format is refused; one too small is not. -/
def float : Reader Binary64 :=
  filter decimalFloat (· ≠ .infinite false) <|> namedFloat

/-! ## Dates and times -/

/-- A number of so many digits in a range. -/
def numberIn (places low high : Nat) : Reader Nat :=
  filter (do return number 10 (← count isDigit places)) fun n => low ≤ n && n ≤ high

/-- The number of days of a month. -/
def daysIn (year month : Nat) : Nat :=
  if month = 2 then
    if year % 4 = 0 ∧ (year % 100 ≠ 0 ∨ year % 400 = 0) then 29 else 28
  else if month = 4 ∨ month = 6 ∨ month = 9 ∨ month = 11 then 30
  else 31

/-- A number in so many places. -/
def places (width n : Nat) : String := padded width '0' (toString n)

def date : Reader String := do
  let year ← numberIn 4 0 9999
  char '-'
  let month ← numberIn 2 1 12
  char '-'
  let day ← numberIn 2 1 (daysIn year month)
  return places 4 year ++ "-" ++ places 2 month ++ "-" ++ places 2 day

/-- The decimals of a second: nine count, and zeros at the end are not written. -/
def decimals : Reader String := do
  char '.'
  let kept := ((← run1 isDigit).take 9).reverse.dropWhile (· = '0')
  return if kept.isEmpty then "" else "." ++ String.ofList kept.reverse

def time : Reader String := do
  let hour ← numberIn 2 0 23
  char ':'
  let minute ← numberIn 2 0 59
  char ':'
  let second ← numberIn 2 0 60
  let fraction := (← opt decimals).getD ""
  return places 2 hour ++ ":" ++ places 2 minute ++ ":" ++ places 2 second ++ fraction

/-- The distance from universal time; none at all has a plus. -/
def zone : Reader String :=
  (do skip (one fun c => c = 'Z' || c = 'z'); return "Z") <|> do
    let sign ← one fun c => c = '+' || c = '-'
    let hour ← numberIn 2 0 23
    char ':'
    let minute ← numberIn 2 0 59
    let sign := if hour = 0 ∧ minute = 0 then '+' else sign
    return sign.toString ++ places 2 hour ++ ":" ++ places 2 minute

/-- A time behind a date. -/
def timePart : Reader String := do
  skip (one fun c => c = 'T' || c = 't' || c = ' ')
  let time ← time
  return "T" ++ time ++ (← opt zone).getD ""

/-- A date, a time, or both, in its normal spelling. -/
def datetime : Reader String :=
  (do
    let date ← date
    return date ++ (← opt timePart).getD "") <|> time

end Provision.Toml.Scalar
