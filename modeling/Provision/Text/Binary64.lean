import Provision.Text.Digits

/-! # Binary floating point as text

Numbers of the binary64 format, exactly: a finite one is a natural number times a power of two.

* `Binary64.ofDecimal` — the nearest such number to a decimal; of two equally near ones the even one.
* `Binary64.shortest` — the fewest digits that read back as the number.
* `Binary64.text` — those digits without an exponent, and always with a point.
-/

namespace Provision

open Text

inductive Binary64 where
  /-- `significand` times two to the `exponent`. -/
  | finite (negative : Bool) (significand : Nat) (exponent : Int)
  | infinite (negative : Bool)
  | nan
  deriving DecidableEq, Repr

namespace Binary64

/-- A fraction scaled by a power of a base: the exponent goes to one side or the other. -/
def scaled (num den base : Nat) (exponent : Int) : Nat × Nat :=
  if 0 ≤ exponent then (num * base.pow exponent.toNat, den)
  else (num, den * base.pow (-exponent).toNat)

/-- The nearest natural number to a fraction; halves go to the even neighbour. -/
def nearest (num den : Nat) : Nat :=
  let floor := num / den
  let rest := 2 * (num % den)
  if rest < den then floor
  else if den < rest then floor + 1
  else if floor % 2 = 0 then floor else floor + 1

def leastExponent : Int := -1074

/-- The least significand of 53 bits. Only the numbers next to zero have less. -/
def leastSignificand : Nat := 0x10000000000000

/-- The exponent at which a positive fraction has a significand of 53 bits, as far as exponents go. -/
def exponentFor (num den : Nat) : Int :=
  let guess := (num.log2 : Int) - den.log2 - 53
  let (n, d) := scaled num den 2 (-guess)
  max leastExponent (if 2 * leastSignificand ≤ n / d then guess + 1 else guess)

/-- The nearest number to a positive fraction. -/
def ofFraction (negative : Bool) (num den : Nat) : Binary64 :=
  let exponent := exponentFor num den
  let (n, d) := scaled num den 2 (-exponent)
  let significand := nearest n d
  let (big, one) := scaled significand 1 2 exponent
  if Nat.pow 2 1024 * one ≤ big then .infinite negative
  else if significand = 2 * leastSignificand then .finite negative leastSignificand (exponent + 1)
  else .finite negative significand exponent

/-- The nearest number to `digits` times ten to the `exponent`. Numbers far outside the format are
    not computed: they are infinite or zero. -/
def ofDecimal (negative : Bool) (digits : Nat) (exponent : Int) : Binary64 :=
  let magnitude := (toString digits).length + exponent
  if digits = 0 ∨ magnitude < -400 then .finite negative 0 leastExponent
  else if 400 < magnitude then .infinite negative
  else
    let (num, den) := scaled digits 1 10 exponent
    ofFraction negative num den

/-! ## Shortest digits -/

/-- Whether `candidate` times ten to the `place` reads back as the number: it lies between the
    midpoints to the neighbours, which themselves go to even significands. -/
def readsBack (significand : Nat) (exponent : Int) (candidate : Nat) (place : Int) : Bool :=
  let narrow := significand = leastSignificand ∧ leastExponent < exponent
  let low := if narrow then 4 * significand - 1 else 4 * significand - 2
  let high := 4 * significand + 2
  let (c, d) := scaled candidate 1 10 place
  let (l, e) := scaled low 1 2 (exponent - 2)
  let (h, _) := scaled high 1 2 (exponent - 2)
  if significand % 2 = 0 then l * d ≤ c * e && c * e ≤ h * d else l * d < c * e && c * e < h * d

/-- The neighbour of the number among the multiples of ten to the `place` that reads back: of two the
    nearer, of two equally near the even one. -/
def gridPoint? (significand : Nat) (exponent : Int) (place : Int) : Option Nat :=
  let (n, d) := scaled significand 1 2 exponent
  let (n, d) := scaled n d 10 (-place)
  let below := n / d
  let best := nearest n d
  let other := if best = below then below + 1 else below
  if readsBack significand exponent best place then some best
  else if readsBack significand exponent other place then some other
  else none

/-- The power of ten of the first digit of a positive number. -/
def leadingPlace (significand : Nat) (exponent : Int) : Int :=
  let (n, d) := scaled significand 1 2 exponent
  if d ≤ n then ((toString (n / d)).length : Int) - 1
  else
    let places := (toString (d / n)).length
    if d ≤ n * Nat.pow 10 (places - 1) then 1 - (places : Int) else -(places : Int)

/-- The first hit on ever finer grids, with its place. -/
def search (significand : Nat) (exponent leading : Int) (tried : Nat) : Nat → Nat × Int
  | 0 => (0, 0)
  | more + 1 =>
    let place := leading - tried
    match gridPoint? significand exponent place with
    | some digits => (digits, place)
    | none => search significand exponent leading (tried + 1) more

/-- The fewest digits that read back, with the power of ten of the last. The search starts one place
    above the first digit, where a number just below a power of ten meets it. -/
def shortest (significand : Nat) (exponent : Int) : Nat × Int :=
  search significand exponent (leadingPlace significand exponent + 1) 0 19

/-! ## Text -/

/-- Digits with a point at a place; at least one digit stands on either side. -/
def positional (digits : Nat) (place : Int) : String :=
  let text := toString digits
  if 0 ≤ place then text ++ String.ofList (List.replicate place.toNat '0') ++ ".0"
  else
    let places := (-place).toNat
    let chars := (padded (places + 1) '0' text).toList
    String.ofList (chars.take (chars.length - places)) ++ "."
      ++ String.ofList (chars.drop (chars.length - places))

/-- A number without an exponent. -/
def text : Binary64 → String
  | .nan => "NaN"
  | .infinite negative => if negative then "-inf" else "inf"
  | .finite negative significand exponent =>
    let magnitude :=
      if significand = 0 then "0.0"
      else
        let (digits, place) := shortest significand exponent
        positional digits place
    if negative then "-" ++ magnitude else magnitude

end Binary64

end Provision
