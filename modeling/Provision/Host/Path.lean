import Provision.Path

/-! # Host paths

Paths of the tree at hand, as they are spelled: absolute or relative, with `.` and `..` left alone. Two
spellings of one place are different paths until the tree is asked.

* `HostPath.components` — the names that a path is made of; `HostPath.parent?`, `fileName?`, `stem?`.
* `HostPath.join` — a path as seen from another; `HostPath.from?` — the way from one path to another.
-/

namespace Provision

def slash : UInt8 := 47

def selfName : Octets := [46]

def upName : Octets := [46, 46]

structure HostPath where
  octets : Octets
  deriving DecidableEq, Repr

namespace HostPath

def ofText (s : String) : HostPath := ⟨utf8 s⟩

/-- The path for display: what is no text in it is replaced. -/
def text (p : HostPath) : String := displayText p.octets

instance : ToString HostPath := ⟨text⟩

def isAbsolute (p : HostPath) : Bool := p.octets.head? = some slash

/-- Whether the path ends with a separator. -/
def endsOpen (p : HostPath) : Bool := p.octets.getLast? = some slash

def join (base path : HostPath) : HostPath :=
  if path.isAbsolute then path
  else if base.octets.isEmpty || base.endsOpen then ⟨base.octets ++ path.octets⟩
  else ⟨base.octets ++ slash :: path.octets⟩

/-! ## Components -/

/-- What stands between separators. -/
def segments (p : HostPath) : List Octets := pieces slash p.octets

/-- Whether a segment says nothing, unless it opens the path. -/
def isIdle (segment : Octets) : Bool := segment.isEmpty || segment = selfName

/-- The component that opens the path: the root, or the directory itself if that is spelled. -/
def opening (p : HostPath) : List Octets :=
  if p.isAbsolute then [[slash]]
  else if p.segments.head? = some selfName then [selfName]
  else []

/-- The names that a path is made of, the root as a separator. -/
def components (p : HostPath) : List Octets :=
  p.opening ++ p.segments.filter fun s => !isIdle s

/-- Segments without the idle ones at the end. -/
def trimEnd (segments : List Octets) : List Octets :=
  (segments.reverse.dropWhile isIdle).reverse

/-- Segments as one text. -/
def joined (segments : List Octets) : Octets := [slash].intercalate segments

/-- The path without its last component, in the same spelling; the root has none, and neither has a
    path without components. -/
def parent? (p : HostPath) : Option HostPath :=
  match p.opening with
  | [] =>
    match trimEnd p.segments with
    | [] => none
    | body => some ⟨joined (trimEnd body.dropLast)⟩
  | first :: _ =>
    match trimEnd p.segments.tail, p.isAbsolute with
    | [], true => none
    | [], false => some ⟨[]⟩
    | body, isAbsolute =>
      let above := joined (trimEnd body.dropLast)
      if isAbsolute then some ⟨slash :: above⟩
      else if above.isEmpty then some ⟨first⟩
      else some ⟨first ++ slash :: above⟩

/-- The directory that a file is to be in. -/
def directory (p : HostPath) : HostPath :=
  match p.parent? with
  | some parent => if parent.octets.isEmpty then ⟨selfName⟩ else parent
  | none => ⟨selfName⟩

/-- The last component, if it is a proper name. -/
def fileName? (p : HostPath) : Option Octets :=
  p.components.getLast?.filter fun name => name ≠ [slash] && name ≠ selfName && name ≠ upName

/-- A name without what follows its last dot; a dot that opens the name does not count. -/
def stemOf (name : Octets) : Octets :=
  match (name.reverse.dropWhile (· ≠ 46)).tail.reverse with
  | [] => name
  | stem => stem

/-- The file name up to its last dot. -/
def stem? (p : HostPath) : Option Octets := p.fileName?.map stemOf

/-- The components that lead from `base` to the path. -/
def from? (p base : HostPath) : Option (List Octets) :=
  if base.components.isPrefixOf p.components then some (p.components.drop base.components.length)
  else none

/-- Whether the path means the directory at hand. -/
def isHere (p : HostPath) : Bool := p.components = [selfName]

end HostPath

end Provision
