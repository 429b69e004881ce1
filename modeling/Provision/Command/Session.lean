import Provision.Command.Console
import Provision.Host.Tree
import Provision.Note

/-! # Sessions

What a command does to the machine that it runs on. Each step may change the machine and then fail; nothing is
undone unless a step undoes it.

* `Machine` — the tree, and what has been printed and said.
* `Supplies` — what else the machine gives to a run: room for its output above all.
* `Session` — a computation on a machine; notes are taken over from `Traced`.
* `Session.print` — standard output, which may take only a part of what is printed.
* `Session.replaceFile` — an output file, made under a provisional name and then moved into place.
-/

namespace Provision

/-! ## Machines -/

/-- What a command can change. -/
structure Machine where
  tree : Tree
  /-- What standard output has taken. -/
  printed : Octets
  /-- What has been said beside the output. -/
  notes : List Note
  /-- The file that has been written. -/
  written : Option (HostPath × Octets)

namespace Machine

/-- A machine on which nothing has been done yet. -/
def start (t : Tree) : Machine := ⟨t, [], [], none⟩

/-- The machine with a file at a location; it is for the owner alone. -/
def withFile (m : Machine) (l : Location) (content : Octets) : Machine :=
  { m with tree := m.tree.insert l ⟨.file content, 0o600, 0⟩ }

def without (m : Machine) (l : Location) : Machine := { m with tree := m.tree.erase l }

end Machine

/-! ## Supplies -/

/-- How many octets there is room for, if that is limited. -/
abbrev Room := Option Nat

namespace Room

/-- Whether there is no room for some octets. -/
def lacks (r : Room) (octets : Octets) : Bool := r.any (· < octets.length)

/-- The part of some octets that there is room for. -/
def part (r : Room) (octets : Octets) : Octets :=
  match r with
  | none => octets
  | some room => octets.take room

theorem part_of_not_lacks {r : Room} {octets : Octets} (h : ¬r.lacks octets) : r.part octets = octets := by
  cases r with
  | none => rfl
  | some room => exact List.take_of_length_le (by simpa [lacks] using h)

/-- What there is no room for is cut. -/
theorem lacks_iff {r : Room} {octets : Octets} :
    r.lacks octets ↔ ∃ room, r = some room ∧ room < octets.length ∧ r.part octets = octets.take room := by
  cases r with
  | none => simp [lacks]
  | some room => simp [lacks, part]

end Room

/-- Where standard output goes. Once it has refused something, it takes nothing more. -/
structure Outlet where
  room : Room
  /-- How it refuses what there is no room for. -/
  fault : HostFault

/-- What a run gets from the machine beside the tree. -/
structure Supplies where
  /-- What comes after `.tmp` in the names that are tried for a provisional file. -/
  endings : List Octets
  /-- The room for the content of a provisional file. -/
  room : Room
  outlet : Outlet

/-- An outlet that takes everything. -/
def Outlet.endless : Outlet := ⟨none, .brokenPipe⟩

namespace Supplies

/-- Names that differ from each other, as many as are tried, and no limit. -/
def ample : Supplies where
  endings := (List.range 65536).map fun n => utf8 (Text.padded 6 '0' (toString n))
  room := none
  outlet := .endless

/-- The names that are tried. -/
def names (s : Supplies) : List Octets := s.endings.map (utf8 ".tmp" ++ ·)

end Supplies

/-! ## Ends -/

/-- How a command ends before it is done. -/
inductive Stop where
  | failure (f : Failure)
  /-- It breaks off where a line cannot be printed. -/
  | unprinted (fault : HostFault)
  deriving DecidableEq, Repr

namespace Stop

def exitCode : Stop → Nat
  | failure _ => 1
  | unprinted _ => 101

theorem exitCode_ne_zero (stop : Stop) : stop.exitCode ≠ 0 := by
  cases stop <;> exact Nat.succ_ne_zero _

/-- What is said of the end by the way. -/
def notes : Stop → List Note
  | failure f => [⟨.error, .console, f.line⟩]
  | unprinted _ => []

/-- What is said of it in the end. The place in the program where it breaks off is left out. -/
def report : Stop → String
  | failure f => f.report
  | unprinted fault => s!"failed printing to stdout: {fault}\n"

end Stop

/-- A computation on a machine. What it did remains when it ends early. -/
abbrev Session := ExceptT Stop (StateM Machine)

namespace Session

/-- What a session comes to on a machine. -/
def on {α : Type} (x : Session α) (m : Machine) : Except Stop α × Machine := x.run.run m

def fail {α : Type} (message : String) (causes : List String) : Session α := throw (.failure ⟨message, causes⟩)

/-- Notes and a result. -/
def ofTraced {α : Type} (traced : Traced Failure α) : Session α := do
  modify fun m => { m with notes := m.notes ++ traced.notes }
  traced.result.mapError Stop.failure

instance : MonadLift (Traced Failure) Session := ⟨ofTraced⟩

/-- Print octets, as far as standard output takes them. -/
def print (outlet : Outlet) (refused : HostFault → Stop) (octets : Octets) : Session Unit := do
  let printed := (← get).printed ++ octets
  modify fun m => { m with printed := outlet.room.part printed }
  if outlet.room.lacks printed then throw (refused outlet.fault)

/-- The failure of a step that prints a whole document. -/
def unwritten (context : String) (fault : HostFault) : Stop := .failure ⟨context, [fault.message]⟩

/-! ## Output files -/

/-- A file that is to be moved into place: where it is, and its path as it is spelled. -/
structure Provisional where
  location : Location
  path : HostPath

/-- Make an empty file in a directory, under a name that is free. -/
def makeProvisional (s : Supplies) (directory : HostPath) : Session Provisional := do
  let t := (← get).tree
  match t.newLocation directory s.names with
  | .error fault => fail s!"creating temporary file in {directory}" [fault.message]
  | .ok (l, name) =>
    modify (·.withFile (l ++ [name]) [])
    return ⟨l ++ [name], ((HostPath.ofLocation t.here).join directory).join ⟨name⟩⟩

/-- Write octets to a provisional file, as far as there is room. -/
def fill (s : Supplies) (file : Provisional) (octets : Octets) : Session Unit := do
  modify (·.withFile file.location (s.room.part octets))
  if s.room.lacks octets then fail s!"writing {file.path}" [HostFault.noSpace.message]

/-- Move a file to a path. -/
def moveInto (l : Location) (path : HostPath) : Session Unit := do
  match (← get).tree.moveInto l path with
  | .error fault =>
    fail s!"renaming archive into place at {path}" [s!"failed to persist temporary file: {fault}", fault.message]
  | .ok t => modify fun m => { m with tree := t }

/-- Fill a provisional file and move it to a path; if that fails, remove it. -/
def complete (s : Supplies) (file : Provisional) (path : HostPath) (octets : Octets) : Session Unit := do
  try
    fill s file octets
    moveInto file.location path
  catch stop =>
    modify (·.without file.location)
    throw stop

/-- Write an output file. What is there already stays, unless `force` is given. The file is made in its directory
    and then moved into place, so that no one sees a part of it. -/
def replaceFile (s : Supplies) (path : HostPath) (octets : Octets) (force : Bool) : Session Unit := do
  if (← get).tree.exists? path && !force then
    fail s!"{path} already exists (use --force to overwrite)" []
  else
    let file ← makeProvisional s path.directory
    complete s file path octets
    modify fun m => { m with written := some (path, octets) }

end Session

end Provision
