import Provision.Host.Path
import Provision.Resource
import Provision.SortedMap

/-! # The tree at hand

A file tree as the operating system shows it to its owner: what is where, which directory paths start
from, and what looking at a path answers.

* `Tree` — inodes by location; `Tree.locate` — the location that a path leads to.
* `status`, `linkStatus`, `exists`, `read`, `readText`, `readLink`, `list` — looking.
* `Tree.newLocation`, `Tree.moveInto` — where a new file can be made, and a file that takes the place of what is at a
  path.
* `HostFault` — why looking fails, with the wording of the operating system.
-/

namespace Provision

/-! ## Faults -/

/-- Why the operating system refuses. -/
inductive HostFault where
  | missing
  | unopenable
  | denied
  | busy
  | notADirectory
  | isADirectory
  | nameTooLong
  | tooManyLinks
  | noSpace
  /-- Nobody is left to take what is written. -/
  | brokenPipe
  /-- Every name that a file was to be made under is taken. -/
  | namesTaken
  /-- The path holds a NUL. -/
  | nulInPath
  /-- The file is read as text but holds none. -/
  | notText
  deriving DecidableEq, Repr

def HostFault.message : HostFault → String
  | missing => "No such file or directory (os error 2)"
  | unopenable => "No such device or address (os error 6)"
  | denied => "Permission denied (os error 13)"
  | busy => "Device or resource busy (os error 16)"
  | notADirectory => "Not a directory (os error 20)"
  | isADirectory => "Is a directory (os error 21)"
  | noSpace => "No space left on device (os error 28)"
  | brokenPipe => "Broken pipe (os error 32)"
  | nameTooLong => "File name too long (os error 36)"
  | tooManyLinks => "Too many levels of symbolic links (os error 40)"
  | namesTaken => "too many temporary files exist"
  | nulInPath => "file name contained an unexpected NUL byte"
  | notText => "stream did not contain valid UTF-8"

instance : ToString HostFault := ⟨HostFault.message⟩

/-! ## Trees -/

/-- What is at a location. -/
inductive Matter where
  | file (content : Octets)
  | directory
  | symlink (target : Octets)
  | fifo
  | socket
  | device (deviceClass : DeviceClass) (major minor : Nat)
  deriving DecidableEq, Repr

/-- What is at a location, with its metadata. The time may lie before the epoch. -/
structure Inode where
  matter : Matter
  mode : Nat
  mtime : Int
  deriving DecidableEq, Repr

/-- Names from the root down. -/
abbrev Location := List Octets

/-- The absolute path of a location. -/
def HostPath.ofLocation (l : Location) : HostPath := ⟨slash :: HostPath.joined l⟩

/-- A file tree and the directory that relative paths start from. -/
structure Tree where
  inodes : SortedMap Location Inode compare
  here : Location

namespace Inode

def isDirectory (i : Inode) : Bool := i.matter = .directory

def isReadable (i : Inode) : Bool := i.mode &&& 0o400 ≠ 0

/-- Whether the owner may put names into the directory. -/
def isWritable (i : Inode) : Bool := i.mode &&& 0o200 ≠ 0

/-- Whether the owner may look names up in the directory. -/
def isSearchable (i : Inode) : Bool := i.mode &&& 0o100 ≠ 0

end Inode

namespace Tree

/-- What is at a location. The root is always there. -/
def inode? (t : Tree) (l : Location) : Option Inode :=
  (t.inodes.find? l).or (if l = [] then some ⟨.directory, 0o755, 0⟩ else none)

def insert (t : Tree) (l : Location) (i : Inode) : Tree := { t with inodes := t.inodes.insert l i }

def erase (t : Tree) (l : Location) : Tree := { t with inodes := t.inodes.erase l }

/-! ## Paths -/

def longestName : Nat := 255

/-- The shortest path that is too long. -/
def longPath : Nat := 4096

/-- The links that one path may lead through. -/
def linkBudget : Nat := 40

/-- The names to walk along; an empty one at the end asks for a directory. -/
def steps (octets : Octets) : List Octets :=
  let names := (pieces slash octets).filter fun s => !s.isEmpty
  if octets.getLast? = some slash ∧ names ≠ [] then names ++ [[]] else names

/-- Where steps start. -/
def start (l : Location) (octets : Octets) : Location :=
  if octets.head? = some slash then [] else l

/-- Why names cannot be looked up at a location. -/
def lookupFault? (t : Tree) (l : Location) : Option HostFault :=
  match t.inode? l with
  | none => some .missing
  | some i => if !i.isDirectory then some .notADirectory else if !i.isSearchable then some .denied else none

/-- The location that steps lead to. Links are followed, the last one only on request; `budget` counts
    them. -/
def walk (t : Tree) (follow : Bool) (budget : Nat) (names : List Octets) (l : Location) :
    Except HostFault Location :=
  match names with
  | [] => .ok l
  | [] :: rest =>
    match t.inode? l with
    | none => .error .missing
    | some i => if i.isDirectory then walk t follow budget rest l else .error .notADirectory
  | name :: rest =>
    match t.lookupFault? l with
    | some fault => .error fault
    | none =>
      if name = selfName then walk t follow budget rest l
      else if name = upName then walk t follow budget rest l.dropLast
      else if longestName < name.length then .error .nameTooLong
      else match t.inode? (l ++ [name]) with
        | none => .error .missing
        | some ⟨.symlink target, _, _⟩ =>
          if rest.isEmpty && !follow then .ok (l ++ [name])
          else match budget with
            | 0 => .error .tooManyLinks
            | budget + 1 => walk t follow budget (steps target ++ rest) (start l target)
        | some _ => walk t follow budget rest (l ++ [name])
termination_by (budget, names.length)

/-- Why a path cannot be walked at all. -/
def pathFault? (p : HostPath) : Option HostFault :=
  if p.octets.contains 0 then some .nulInPath
  else if p.octets.isEmpty then some .missing
  else if longPath ≤ p.octets.length then some .nameTooLong
  else none

/-- The location that a path leads to, the last link followed or not. -/
def locate (t : Tree) (follow : Bool) (p : HostPath) : Except HostFault Location :=
  match pathFault? p with
  | some fault => .error fault
  | none => t.walk follow linkBudget (steps p.octets) (start t.here p.octets)

/-! ## Looking -/

/-- What a path leads to, links followed. -/
def status (t : Tree) (p : HostPath) : Except HostFault Inode := do
  let l ← t.locate true p
  (t.inode? l).elim (.error .missing) .ok

/-- What a path leads to, the last link not followed. -/
def linkStatus (t : Tree) (p : HostPath) : Except HostFault Inode := do
  let l ← t.locate false p
  (t.inode? l).elim (.error .missing) .ok

def exists? (t : Tree) (p : HostPath) : Bool := (t.status p).toBool

def isDirectory (t : Tree) (p : HostPath) : Bool :=
  match t.status p with
  | .ok i => i.isDirectory
  | .error _ => false

/-- The content of the file that a path leads to. A pipe or device has none. -/
def read (t : Tree) (p : HostPath) : Except HostFault Octets := do
  let i ← t.status p
  if !i.isReadable then throw .denied
  match i.matter with
  | .file content => return content
  | .directory => throw .isADirectory
  | .socket => throw .unopenable
  | .symlink _ | .fifo | .device .. => return []

/-- The content of a file as a text. -/
def readText (t : Tree) (p : HostPath) : Except HostFault String := do
  match textOf? (← t.read p) with
  | some s => return s
  | none => throw .notText

/-- What is in a location, by names in ascending order. -/
def entriesIn (t : Tree) (l : Location) : List (Octets × Inode) :=
  t.inodes.entries.filterMap fun (k, i) =>
    if k.dropLast = l then k.getLast?.map fun name => (name, i) else none

/-- What is in the directory that a path leads to, by names in ascending order. -/
def list (t : Tree) (p : HostPath) : Except HostFault (List (Octets × Inode)) := do
  let l ← t.locate true p
  match t.inode? l with
  | none => throw .missing
  | some i =>
    if !i.isDirectory then throw .notADirectory
    if !i.isReadable then throw .denied
    return t.entriesIn l

/-! ## Writing -/

/-- Why no file can be made in a directory. -/
def creationFault? (t : Tree) (l : Location) : Option HostFault :=
  (t.lookupFault? l).or ((t.inode? l).bind fun i => if i.isWritable then none else some .denied)

/-- Where a new file can be made in a directory: the location of the directory, and the first of some names that
    is free. -/
def newLocation (t : Tree) (directory : HostPath) (names : List Octets) : Except HostFault (Location × Octets) := do
  let l ← t.locate true directory
  if let some fault := t.creationFault? l then throw fault
  match names.find? fun name => (t.inode? (l ++ [name])).isNone with
  | none => throw .namesTaken
  | some name => return (l, name)

/-- The location that a new name has, with the directory it is to be in. -/
def nameAt (t : Tree) (p : HostPath) : Except HostFault (Location × Octets) := do
  let names := steps p.octets
  let name := (names.filter fun s => !s.isEmpty).getLastD []
  let above := (names.filter fun s => !s.isEmpty).dropLast
  let l ← t.walk true linkBudget above (start t.here p.octets)
  match t.lookupFault? l with
  | some fault => throw fault
  | none => return (l, name)

/-- Why a name that a path ends with cannot be given to a file. -/
def nameFault? (t : Tree) (p : HostPath) (l : Location) (name : Octets) : Option HostFault :=
  if name.isEmpty || name = selfName || name = upName then some .busy
  else if longestName < name.length then some .nameTooLong
  else if p.endsOpen then some .notADirectory
  else if (t.inode? (l ++ [name])).any (·.isDirectory) then some .isADirectory
  else none

/-- The tree with the file at a location moved to a path. What is there is replaced; a link is not followed. -/
def moveInto (t : Tree) (source : Location) (p : HostPath) : Except HostFault Tree := do
  if let some fault := pathFault? p then throw fault
  let (l, name) ← t.nameAt p
  match t.nameFault? p l name, t.inode? source with
  | some fault, _ => throw fault
  | none, none => throw .missing
  | none, some i => return (t.erase source).insert (l ++ [name]) i

end Tree

end Provision
