import Provision.Text.Digits

/-! # Mode and ownership

* `Mode` — permission bits, with their reading from octal text.
* `Principal` — a user or group by name, by number, or both.
* `Permissions` — the three of them, each optional; `overlaid` lets a later set win field by field.
-/

namespace Provision

open Text

/-! ## Modes -/

/-- Permission bits. They are checked when a declaration is made. -/
structure Mode where
  bits : Nat
  deriving DecidableEq, Repr

/-- The largest permission bits: reading, writing and executing for all, and the three special bits. -/
def Mode.largest : Nat := 0o7777

/-- Why bits or a text are no mode. -/
inductive ModeFault where
  /-- The bits exceed the largest ones. -/
  | exceeds (bits : Nat)
  /-- The number is negative or far too large to be bits. -/
  | outOfRange (number : Int)
  /-- The text holds something else than decimal digits. -/
  | notDigits (text : String)
  /-- The text has neither three nor four digits. -/
  | badLength (text : String)
  /-- A digit is not octal. -/
  | badDigit (digit : Char) (text : String)
  deriving DecidableEq, Repr

def ModeFault.message : ModeFault → String
  | .exceeds bits => s!"mode {octal bits} exceeds {octal Mode.largest}"
  | .outOfRange number => s!"mode {number} is out of range"
  | .notDigits text => s!"invalid octal mode '{text}': must contain only digits"
  | .badLength text => s!"invalid mode length '{text}': must be 3 or 4 digits"
  | .badDigit digit text => s!"invalid octal digit '{digit}' in mode '{text}'"

namespace Mode

/-- The fault of bits that are too large. -/
def fault? (mode : Mode) : Option ModeFault :=
  if mode.bits ≤ largest then none else some (.exceeds mode.bits)

theorem fault?_eq_none_iff {mode : Mode} : mode.fault? = none ↔ mode.bits ≤ largest := by
  rw [fault?, ite_eq_left_iff]
  simp

/-- Bits as a mode, if they are in range. -/
def ofBits (bits : Nat) : Except ModeFault Mode :=
  match (Mode.mk bits).fault? with
  | none => .ok ⟨bits⟩
  | some fault => .error fault

/-- The mode that three or four octal digits write. -/
def parse (text : String) : Except ModeFault Mode :=
  let digits := text.toList
  if !digits.all isDigit then .error (.notDigits text)
  else if digits.length ≠ 3 ∧ digits.length ≠ 4 then .error (.badLength text)
  else match digits.find? (fun c => decide ('7' < c)) with
    | some digit => .error (.badDigit digit text)
    | none => ofBits (number 8 digits)

/-- The mode a number stands for: the number may be anything a document can hold. -/
def ofInt (number : Int) : Except ModeFault Mode :=
  if 0 ≤ number ∧ number < UInt32.size then ofBits number.toNat else .error (.outOfRange number)

/-- At least four octal digits. -/
def text (mode : Mode) : String := padded 4 '0' (octal mode.bits)

end Mode

/-! ## Principals -/

/-- A user or group. An extractor that honours names prefers the name and falls back to the id. -/
structure Principal where
  name : Option String
  id : Option Nat
  deriving DecidableEq, Repr

/-- Why a principal names nobody. -/
inductive PrincipalFault where
  | anonymous
  | emptyName
  | nulInName
  deriving DecidableEq, Repr

def PrincipalFault.message : PrincipalFault → String
  | .anonymous => "needs a name, an id, or both"
  | .emptyName => "name is empty"
  | .nulInName => "name contains a NUL byte"

namespace Principal

/-- The fault of a principal: there must be a name or an id, and a name must be usable. -/
def fault? (p : Principal) : Option PrincipalFault :=
  match p.name, p.id with
  | none, none => some .anonymous
  | none, some _ => none
  | some name, _ =>
    if name.isEmpty then some .emptyName
    else if '\x00' ∈ name.toList then some .nulInName
    else none

/-- The name with the id in parentheses, or the one that is given, or a dash. -/
def text (p : Principal) : String :=
  match p.name, p.id with
  | some name, some id => s!"{name}({id})"
  | some name, none => name
  | none, some id => toString id
  | none, none => "-"

end Principal

/-! ## Permissions -/

/-- Mode and ownership, each optional: what is unset is left to others. -/
structure Permissions where
  mode : Option Mode
  owner : Option Principal
  group : Option Principal
  deriving DecidableEq, Repr

namespace Permissions

/-- Nothing set. -/
def none : Permissions := ⟨.none, .none, .none⟩

instance : Inhabited Permissions := ⟨none⟩

def isEmpty (p : Permissions) : Bool :=
  p.mode.isNone && p.owner.isNone && p.group.isNone

/-- The permissions with every field that `later` sets taken from it. -/
def overlaid (p later : Permissions) : Permissions where
  mode := later.mode.or p.mode
  owner := later.owner.or p.owner
  group := later.group.or p.group

end Permissions

end Provision
