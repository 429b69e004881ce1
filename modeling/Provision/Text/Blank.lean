import Provision.Text.Ranges

/-! # Blank characters

The characters with the White_Space property, and texts without them at their ends.

* `isBlank` — the property; `isBlank_of_isWhitespace` — it holds of every blank that ASCII knows.
* `trimmed` — a text without blanks before and after.
-/

namespace Provision.Text

/-- The code points with the White_Space property, as ranges. -/
def blankRanges : Ranges :=
  [(0x9, 0xD), (0x20, 0x20), (0x85, 0x85), (0xA0, 0xA0), (0x1680, 0x1680), (0x2000, 0x200A),
    (0x2028, 0x2029), (0x202F, 0x202F), (0x205F, 0x205F), (0x3000, 0x3000)]

def isBlank (c : Char) : Bool := blankRanges.has c

theorem isBlank_of_isWhitespace {c : Char} (h : c.isWhitespace) : isBlank c := by
  simp only [Char.isWhitespace, Bool.or_eq_true, decide_eq_true_eq] at h
  rcases h with ((rfl | rfl) | rfl) | rfl <;> decide

/-- The characters without blanks at either end. -/
def trimBlanks (cs : List Char) : List Char :=
  ((cs.dropWhile isBlank).reverse.dropWhile isBlank).reverse

@[inherit_doc trimBlanks]
def trimmed (s : String) : String := String.ofList (trimBlanks s.toList)

end Provision.Text
