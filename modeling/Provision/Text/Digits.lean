/-! # Numbers as text

* `octal`, `hex` — digits without a leading zero.
* `padded` — a text brought to a least width by a fill character in front.
* `number`, `decimal?` — the way back.
* `isSignedNumber` — numbers with a plus sign in front.
-/

namespace Provision.Text

/-- Octal digits without a leading zero. -/
def octal (n : Nat) : String := String.ofList (Nat.toDigits 8 n)

/-- Lower-case hexadecimal digits without a leading zero. -/
def hex (n : Nat) : String := String.ofList (Nat.toDigits 16 n)

/-- `s` with `fill` in front up to `width` characters. -/
def padded (width : Nat) (fill : Char) (s : String) : String :=
  String.ofList (List.replicate (width - s.length) fill) ++ s

/-- `s` with blanks behind up to `width` characters. -/
def widened (width : Nat) (s : String) : String :=
  s ++ String.ofList (List.replicate (width - s.length) ' ')

/-- Whether a character is one of `0` to `9`. -/
def isDigit (c : Char) : Bool := '0' ≤ c && c ≤ '9'

/-- Whether a character is a hexadecimal digit, of either case. -/
def isHexDigit (c : Char) : Bool := isDigit c || ('a' ≤ c && c ≤ 'f') || ('A' ≤ c && c ≤ 'F')

def digitValue (c : Char) : Nat :=
  if isDigit c then c.toNat - '0'.toNat
  else if 'a' ≤ c then c.toNat - 'a'.toNat + 10
  else c.toNat - 'A'.toNat + 10

/-- The number that digits write in a base. -/
def number (base : Nat) (digits : List Char) : Nat :=
  digits.foldl (fun n c => n * base + digitValue c) 0

/-- The number that decimal digits write; a `+` may stand in front. -/
def decimal? (s : String) : Option Nat :=
  let digits := match s.toList with
    | '+' :: rest => rest
    | cs => cs
  if digits.isEmpty || !digits.all isDigit then none else some (number 10 digits)

/-- Whether a text is the exponent of a number, or empty. -/
def isExponent : List Char → Bool
  | [] => true
  | mark :: rest =>
    let digits := match rest with
      | '+' :: digits | '-' :: digits => digits
      | digits => digits
    (mark = 'e' || mark = 'E') && !digits.isEmpty && digits.all isDigit

/-- Whether a text is a decimal number without a sign: digits with a point anywhere among them, and an
    exponent. -/
def isUnsignedNumber (cs : List Char) : Bool :=
  let whole := cs.takeWhile isDigit
  let rest := cs.drop whole.length
  let fraction := match rest with
    | '.' :: rest => rest.takeWhile isDigit
    | _ => []
  let point := if rest.head? = some '.' then 1 else 0
  !(whole.isEmpty && fraction.isEmpty) && isExponent (rest.drop (point + fraction.length))

/-- Whether a text is a decimal number or the name of an infinite or undefined one, after a plus sign. -/
def isSignedNumber : List Char → Bool
  | '+' :: cs =>
    isUnsignedNumber cs || String.ofList (cs.map Char.toLower) ∈ ["inf", "infinity", "nan"]
  | _ => false

end Provision.Text
