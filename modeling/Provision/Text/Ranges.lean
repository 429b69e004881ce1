/-! # Sets of characters

* `Ranges` — a set of characters as ranges of code points; `Ranges.has` — whether a character is in it.
-/

namespace Provision.Text

/-- A set of characters as ranges in ascending order, each the first and the last code point. -/
abbrev Ranges := List (Nat × Nat)

/-- Whether a character lies in one of the ranges. -/
def Ranges.has (ranges : Ranges) (c : Char) : Bool :=
  ranges.any fun range => range.1 ≤ c.toNat && c.toNat ≤ range.2

theorem Ranges.has_iff {ranges : Ranges} {c : Char} :
    ranges.has c ↔ ∃ range ∈ ranges, range.1 ≤ c.toNat ∧ c.toNat ≤ range.2 := by
  simp [Ranges.has]

end Provision.Text
