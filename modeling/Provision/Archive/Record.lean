import Provision.SortedMap
import Provision.Octets

/-! # Extended header records

What does not fit into a header block travels before it as records, each a length, a key and a value.
The length counts the whole record, its own digits included.

* `Record.length` — that length, found by counting its digits until nothing changes.
* `ExtendedRecords` — the records of one member by key; `ExtendedRecords.encode` writes them in key order.
-/

namespace Provision

namespace Record

/-- The number of decimal digits. -/
def digits (n : Nat) : Nat := (toString n).length

theorem digits_eq_length (n : Nat) : digits n = (Nat.toDigits 10 n).length := by
  rw [digits, Nat.toString_eq_ofList_toDigits, String.length_ofList]

theorem digits_mono {m n : Nat} (h : m ≤ n) : digits m ≤ digits n := by
  rw [digits_eq_length, digits_eq_length, Nat.length_toDigits_le_iff (by decide) Nat.length_toDigits_pos]
  have hn : n < 10 ^ (Nat.toDigits 10 n).length :=
    (Nat.length_toDigits_le_iff (by decide) Nat.length_toDigits_pos).1 (Nat.le_refl _)
  exact Nat.lt_of_le_of_lt h hn

theorem digits_le (n : Nat) : digits n ≤ n / 2 + 1 := by
  rw [digits_eq_length, Nat.length_toDigits_le_iff (by decide) (Nat.succ_pos _), Nat.pow_succ]
  have hpow : n / 2 < 2 ^ (n / 2) := Nat.lt_two_pow_self
  have hle : 2 ^ (n / 2) ≤ 10 ^ (n / 2) := Nat.pow_le_pow_left (by decide) _
  omega

/-- A length with the digits counted anew, until they come to what is there already. The length only grows, and it
    cannot pass twice what it started from. -/
def settle (base length : Nat) (h : length ≤ base + digits length) : Nat :=
  if base + digits length = length then length
  else settle base (base + digits length) (Nat.add_le_add_left (digits_mono h) base)
termination_by 2 * base + 2 - length
decreasing_by
  have hnext := digits_le (base + digits length)
  have hgrows := digits_mono h
  omega

/-- The length of a record whose other parts take `base` octets. -/
def length (base : Nat) : Nat :=
  settle base (base + digits base) (Nat.add_le_add_left (digits_mono (Nat.le_add_right _ _)) base)

def encode (key : String) (value : Octets) : Octets :=
  let base := (utf8 key).length + value.length + 3
  utf8 (toString (length base)) ++ utf8 " " ++ utf8 key ++ utf8 "=" ++ value ++ utf8 "\n"

end Record

abbrev ExtendedRecords := SortedMap String Octets byteOrder

namespace ExtendedRecords

/-- The key under which an attribute is recorded. -/
def attributeKey (name : String) : String := "SCHILY.xattr." ++ name

def encode (records : ExtendedRecords) : Octets :=
  records.entries.flatMap fun (key, value) => Record.encode key value

end ExtendedRecords

end Provision
