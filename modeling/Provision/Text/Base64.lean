import Provision.Octets

/-! # Base64

Octets in the standard alphabet: four symbols for three octets, the last group filled up with `=`.
Reading is strict. The filling must be there, and bits that belong to no octet must be zero, so that
no two texts stand for the same octets.

* `Base64.decode` — the octets that symbols stand for, or the first fault.
* `Base64Fault` — what can be wrong, with its wording.
-/

namespace Provision

/-- Why symbols stand for no octets. -/
inductive Base64Fault where
  /-- An octet that is no symbol where it stands. -/
  | symbol (octet : UInt8) (offset : Nat)
  /-- The symbols end within an octet. -/
  | cut (length : Nat)
  /-- The last symbol has bits that belong to no octet. -/
  | lastSymbol (octet : UInt8) (offset : Nat)
  /-- The last group is not filled up. -/
  | padding
  deriving DecidableEq, Repr

def Base64Fault.message : Base64Fault → String
  | .symbol octet offset => s!"Invalid symbol {octet}, offset {offset}."
  | .cut length => s!"Invalid input length: {length}"
  | .lastSymbol octet offset => s!"Invalid last symbol {octet}, offset {offset}."
  | .padding => "Invalid padding"

namespace Base64

/-- The octet that fills up the last group. -/
def pad : UInt8 := 61

def sextet? (b : UInt8) : Option Nat :=
  if 65 ≤ b && b ≤ 90 then some (b.toNat - 65)
  else if 97 ≤ b && b ≤ 122 then some (b.toNat - 97 + 26)
  else if 48 ≤ b && b ≤ 57 then some (b.toNat - 48 + 52)
  else if b == 43 then some 62
  else if b == 47 then some 63
  else none

/-- The six bits of each symbol, counting offsets from `offset`. -/
def sextets (offset : Nat) : Octets → Except Base64Fault (List Nat)
  | [] => .ok []
  | b :: rest =>
    match sextet? b with
    | none => .error (.symbol b offset)
    | some bits => (sextets (offset + 1) rest).map (bits :: ·)

/-- The octets in groups of four sextets; a last group of two or three has one or two. -/
def octets : List Nat → Octets
  | a :: b :: c :: d :: rest =>
    UInt8.ofNat (a * 4 + b / 16) :: UInt8.ofNat (b % 16 * 16 + c / 4) :: UInt8.ofNat (c % 4 * 64 + d)
      :: octets rest
  | [a, b, c] => [UInt8.ofNat (a * 4 + b / 16), UInt8.ofNat (b % 16 * 16 + c / 4)]
  | [a, b] => [UInt8.ofNat (a * 4 + b / 16)]
  | _ => []

/-- The bits of a last group that belong to no octet. -/
def leftover : List Nat → Nat
  | [_, b] => b % 16
  | [_, _, c] => c % 4
  | _ => 0

/-- The sextets of the last group, which starts at `offset`. -/
def lastGroup (offset : Nat) (group : Octets) : Except Base64Fault (List Nat) := do
  let symbols := group.takeWhile (· != pad)
  let filling := group.dropWhile (· != pad)
  let bits ← sextets offset symbols
  if !filling.isEmpty && (symbols.length < 2 || filling.any (· != pad)) then
    throw (.symbol pad (offset + symbols.length))
  if bits.length < 2 then throw (.cut (offset + bits.length))
  if group.length % 4 ≠ 0 then throw .padding
  if leftover bits ≠ 0 then
    throw (.lastSymbol (symbols.getLastD pad) (offset + bits.length - 1))
  return bits

/-- The number of octets before the last group, which may be short. -/
def beforeLast (length : Nat) : Nat := (length - 1) / 4 * 4

/-- A last octet that stands alone in its group is looked at first: it is a stray end of line more
    often than a symbol. -/
def strayLast? (text : Octets) : Option Base64Fault :=
  match text.getLast? with
  | some b =>
    if text.length % 4 = 1 ∧ b ≠ pad ∧ sextet? b = none then some (.symbol b (text.length - 1)) else none
  | none => none

def decode (text : Octets) : Except Base64Fault Octets :=
  if text.isEmpty then .ok [] else
  match strayLast? text with
  | some fault => .error fault
  | none => do
    let full := beforeLast text.length
    let bits ← sextets 0 (text.take full)
    let last ← lastGroup full (text.drop full)
    return octets (bits ++ last)

end Base64

end Provision
