/-! # Wildcard patterns

A pattern for names: `?` stands for one character, `*` for any number of them, brackets for one of a set.
Two stars stand for any number of directories, and must be a name of their own.

* `Pattern.parse` — the pattern that a text spells, or the fault in it.
* `Pattern.admits` — whether a name fits.
* `Pattern.escape` — a text that stands for itself.
-/

namespace Provision

/-- A run of characters, by its ends. -/
structure CharRange where
  low : Char
  high : Char
  deriving DecidableEq, Repr

/-- Whether a character is in a run. -/
def CharRange.contains (r : CharRange) (c : Char) : Bool := r.low ≤ c && c ≤ r.high

/-- A part of a pattern. -/
inductive Wildcard where
  | char (c : Char)
  | anyChar
  /-- Any number of characters. -/
  | anyText
  /-- Any number of directories. -/
  | anyDepth
  | within (ranges : List CharRange)
  | except (ranges : List CharRange)
  deriving DecidableEq, Repr

/-- Why a text is no pattern. -/
inductive PatternFault where
  | stars (position : Nat)
  | depth (position : Nat)
  | brackets (position : Nat)
  deriving DecidableEq, Repr

def PatternFault.message : PatternFault → String
  | .stars position => told position "wildcards are either regular `*` or recursive `**`"
  | .depth position => told position "recursive wildcards must form a single path component"
  | .brackets position => told position "invalid range pattern"
where
  told (position : Nat) (what : String) : String :=
    s!"Pattern syntax error near position {position}: {what}"

/-- Where a text of several names stands: at the start of one, or after a character of it. -/
inductive NamePosition where
  | atStart
  | inside
  deriving DecidableEq, Repr

/-- A pattern for a name, or for a path of several. -/
structure Pattern where
  parts : List Wildcard
  deriving DecidableEq, Repr

namespace Pattern

/-! ## Reading -/

/-- The runs that the text between brackets names. -/
def ranges : List Char → List CharRange
  | low :: '-' :: high :: rest => ⟨low, high⟩ :: ranges rest
  | c :: rest => ⟨c, c⟩ :: ranges rest
  | [] => []

/-- The text up to a closing bracket, which is not the first character, and what follows it. -/
def bracketed? : List Char → Option (List Char × List Char)
  | [] => none
  | first :: rest =>
    match rest.dropWhile (· ≠ ']') with
    | [] => none
    | _ :: after => some (first :: rest.takeWhile (· ≠ ']'), after)

/-- The part that an opened bracket begins, and what follows it. -/
def bracket? : List Char → Option (Wildcard × List Char)
  | '!' :: inner => (bracketed? inner).map fun (set, after) => (.except (ranges set), after)
  | inner => (bracketed? inner).map fun (set, after) => (.within (ranges set), after)

theorem bracketed?_length {cs set after : List Char} (h : bracketed? cs = some (set, after)) :
    after.length < cs.length := by
  cases cs with
  | nil => simp [bracketed?] at h
  | cons first rest =>
    simp only [bracketed?] at h
    split at h
    · cases h
    · rename_i heq
      cases h
      have := (List.dropWhile_sublist (· ≠ ']') (l := rest)).length_le
      rw [heq] at this
      simp only [List.length_cons] at this ⊢
      omega

theorem bracket?_length {cs after : List Char} {part : Wildcard} (h : bracket? cs = some (part, after)) :
    after.length < cs.length := by
  unfold bracket? at h
  split at h
  · obtain ⟨⟨set, after'⟩, hb, he⟩ := Option.map_eq_some_iff.1 h
    cases he
    have := bracketed?_length hb
    simp only [List.length_cons]
    omega
  · obtain ⟨⟨set, after'⟩, hb, he⟩ := Option.map_eq_some_iff.1 h
    cases he
    exact bracketed?_length hb

/-- The parts of a text that stands at `position`. -/
def partsOf (place : NamePosition) (position : Nat) (cs : List Char) : Except PatternFault (List Wildcard) :=
  match cs with
  | [] => .ok []
  | '?' :: rest => (partsOf .inside (position + 1) rest).map (.anyChar :: ·)
  | '*' :: '*' :: '*' :: _ => .error (.stars (position + 2))
  | '*' :: '*' :: rest =>
    match place, rest with
    | .inside, _ => .error (.depth (position - 1))
    | .atStart, '/' :: rest => (partsOf .atStart (position + 3) rest).map (.anyDepth :: ·)
    | .atStart, [] => .ok [.anyDepth]
    | .atStart, _ => .error (.depth (position + 2))
  | '*' :: rest => (partsOf .inside (position + 1) rest).map (.anyText :: ·)
  | '[' :: rest =>
    match h : bracket? rest with
    | none => .error (.brackets position)
    | some (part, after) =>
      (partsOf .inside (position + 1 + rest.length - after.length) after).map (part :: ·)
  | c :: rest => (partsOf (if c = '/' then .atStart else .inside) (position + 1) rest).map (.char c :: ·)
termination_by cs.length
decreasing_by
  all_goals simp_wf
  all_goals try omega
  have shorter := bracket?_length h
  omega

def parse (text : List Char) : Except PatternFault Pattern :=
  (partsOf .atStart 0 text).map Pattern.mk

def escape (text : List Char) : List Char :=
  text.flatMap fun c => if c = '?' ∨ c = '*' ∨ c = '[' ∨ c = ']' then ['[', c, ']'] else [c]

/-! ## Use -/

/-- The one name that fits, if the pattern has no wildcards. -/
def literal? (p : Pattern) : Option (List Char) :=
  p.parts.mapM fun
    | .char c => some c
    | _ => none

/-- Whether the pattern stands for any number of directories. -/
def isAnyDepth (p : Pattern) : Bool := p.parts.contains .anyDepth

/-- Whether a single character fits a part. -/
def fitsChar (c : Char) : Wildcard → Bool
  | .char c' => c = c'
  | .anyChar => true
  | .within ranges => ranges.any (·.contains c)
  | .except ranges => !ranges.any (·.contains c)
  | .anyText | .anyDepth => false

/-- How a name compares with parts. -/
inductive Fit where
  | fits
  /-- It does not fit, but the end of it may. -/
  | differs
  /-- It is too short, and so is every end of it. -/
  | short
  deriving DecidableEq, Repr

/-- How a name compares with parts. A name that is too short is so for all parts before as well, so
    that no choice of what they stand for need be taken back. -/
def fit : List Wildcard → List Char → Fit
  | [], [] => .fits
  | [], _ :: _ => .differs
  | .anyText :: rest, [] => fit rest []
  | .anyText :: rest, c :: name =>
    match fit rest (c :: name) with
    | .differs => fit (.anyText :: rest) name
    | result => result
  | _ :: _, [] => .short
  | part :: rest, c :: name => if fitsChar c part then fit rest name else .differs
termination_by parts name => parts.length + name.length

def admits (p : Pattern) (name : List Char) : Bool := fit p.parts name = .fits

end Pattern

end Provision
