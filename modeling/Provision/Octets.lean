/-! # Octet strings

Everything the library writes is a list of octets, and every order it keeps on names and paths is the
order of their octets.

* `utf8` — the octets of a text; `utf8_injective` — no two texts share them.
* `byteOrder` — texts compared by their octets, a lawful total order.
* `textOf?`, `displayText` — the text of octets, strictly and with replacement characters.
* `hexadecimal` — two lower-case digits per octet.
-/

namespace Provision

abbrev Octets := List UInt8

def utf8 (s : String) : Octets :=
  s.toByteArray.data.toList

theorem utf8_injective {s t : String} (h : utf8 s = utf8 t) : s = t := by
  apply String.toByteArray_inj.1
  cases hs : s.toByteArray
  cases ht : t.toByteArray
  simp only [utf8, hs, ht] at h
  exact congrArg ByteArray.mk (Array.toList_inj.1 h)

theorem utf8_append (s t : String) : utf8 (s ++ t) = utf8 s ++ utf8 t := by
  simp [utf8]

theorem utf8_ne_nil {s : String} (h : s ≠ "") : utf8 s ≠ [] :=
  fun e => h (utf8_injective e)

/-- What octet strings start with in common has no part in their order. -/
theorem compare_append_left (common a b : Octets) :
    compare (common ++ a) (common ++ b) = compare a b := by
  induction common with
  | nil => rfl
  | cons x common ih => simp [List.compare_cons_cons, ih]

/-- Texts compared by their UTF-8 octets. -/
def byteOrder (s t : String) : Ordering :=
  compare (utf8 s) (utf8 t)

instance : Std.TransCmp byteOrder where
  eq_swap {s t} := Std.OrientedCmp.eq_swap (a := utf8 s) (b := utf8 t)
  isLE_trans {s t u} := Std.TransCmp.isLE_trans (a := utf8 s) (b := utf8 t) (c := utf8 u)

instance : Std.LawfulEqCmp byteOrder where
  compare_self {s} := Std.ReflCmp.compare_self (a := utf8 s)
  eq_of_compare h := utf8_injective (Std.LawfulEqCmp.eq_of_compare h)

/-! ## Reading octets as text -/

/-- The text whose UTF-8 octets are given, if there is one. -/
def textOf? (octets : Octets) : Option String :=
  String.fromUTF8? ⟨octets.toArray⟩

/-- Whether an octet continues a character. -/
def isContinuation (b : UInt8) : Bool :=
  0x80 ≤ b && b ≤ 0xBF

/-- The octets that may follow `lead` in a well-formed character: how many in all, and the range of
    the first of them. -/
def followers (lead : UInt8) : Option (Nat × UInt8 × UInt8) :=
  if 0xC2 ≤ lead && lead ≤ 0xDF then some (1, 0x80, 0xBF)
  else if lead == 0xE0 then some (2, 0xA0, 0xBF)
  else if lead == 0xED then some (2, 0x80, 0x9F)
  else if 0xE1 ≤ lead && lead ≤ 0xEF then some (2, 0x80, 0xBF)
  else if lead == 0xF0 then some (3, 0x90, 0xBF)
  else if 0xF1 ≤ lead && lead ≤ 0xF3 then some (3, 0x80, 0xBF)
  else if lead == 0xF4 then some (3, 0x80, 0x8F)
  else none

/-- The longest run of octets after `lead` that a well-formed character could start with. -/
def followRun (lead : UInt8) (rest : Octets) : Octets :=
  match followers lead, rest with
  | some (n, low, high), b :: more =>
    if low ≤ b && b ≤ high then b :: (more.take (n - 1)).takeWhile isContinuation else []
  | _, _ => []

/-- Octets as text for display: each maximal ill-formed piece becomes one U+FFFD. -/
def displayChars : Octets → List Char
  | [] => []
  | b :: rest =>
    if b < 0x80 then Char.ofNat b.toNat :: displayChars rest
    else
      let run := followRun b rest
      let char := ((textOf? (b :: run)).bind (·.toList.head?)).getD '\uFFFD'
      char :: displayChars (rest.drop run.length)
termination_by octets => octets.length
decreasing_by all_goals simp_wf; try omega

@[inherit_doc displayChars]
def displayText (octets : Octets) : String :=
  String.ofList (displayChars octets)

/-! ## Hexadecimal -/

/-- Two lower-case hexadecimal digits. -/
def hexPair (b : UInt8) : List Char :=
  [Nat.digitChar (b.toNat / 16), Nat.digitChar (b.toNat % 16)]

/-- Two lower-case hexadecimal digits per octet. -/
def hexadecimal (octets : Octets) : String :=
  String.ofList (octets.flatMap hexPair)

end Provision
