import Provision.Path
import Provision.Resource
import Provision.Text.Escaped

/-! # Declarations

A declaration says what is wanted at one path, where it was said, and which paths must be there
first. Every declaration is valid: its type carries the outcome of the checks.

* `Fault` — why a declaration is refused, with the field it concerns and its wording.
* `Resource.fault?` — the first fault of a resource.
* `Declaration.make`, `Declaration.requiring` — the two steps that build one.
-/

namespace Provision

open Text

/-! ## Faults -/

/-- Why a declaration is refused. -/
inductive Fault where
  | path (fault : PathFault)
  | mode (fault : ModeFault)
  | owner (fault : PrincipalFault)
  | group (fault : PrincipalFault)
  | targetEmpty
  | targetNul
  | attributeUnnamed
  | attributeName (name : String)
  | permissionsEmpty
  | rootKind (kind : Kind)
  | requires (fault : PathFault)
  | requiresSelf
  deriving DecidableEq, Repr

/-- The field that a fault concerns. -/
def Fault.field : Fault → String
  | .path _ => "path"
  | .mode _ => "mode"
  | .owner _ => "owner"
  | .group _ => "group"
  | .targetEmpty | .targetNul => "target"
  | .attributeUnnamed | .attributeName _ => "xattr"
  | .permissionsEmpty => "permissions"
  | .rootKind _ => "kind"
  | .requires _ | .requiresSelf => "requires"

def Fault.reason : Fault → String
  | .path fault | .requires fault => fault.message
  | .mode fault => fault.message
  | .owner fault | .group fault => fault.message
  | .targetEmpty => "symlink target is empty"
  | .targetNul => "symlink target contains a NUL byte"
  | .attributeUnnamed => "attribute name is empty"
  | .attributeName name => s!"attribute name '{escaped name}' contains NUL or '='"
  | .permissionsEmpty => "permission-set declares neither mode, owner nor group"
  | .rootKind kind => s!"the root can only be a directory, not a {kind}"
  | .requiresSelf => "a declaration cannot require its own path"

/-- A refused declaration: the path it was for, as the refusing check knew it, and the fault. -/
structure InvalidDeclaration where
  path : String
  fault : Fault
  deriving DecidableEq, Repr

def InvalidDeclaration.message (e : InvalidDeclaration) : String :=
  s!"invalid declaration for '{e.path}': {e.fault.field}: {e.fault.reason}"

/-! ## Checks -/

/-- The first fault of permissions: mode, then owner, then group. -/
def Permissions.fault? (p : Permissions) : Option Fault :=
  ((p.mode.bind Mode.fault?).map Fault.mode).or
    (((p.owner.bind Principal.fault?).map Fault.owner).or
      ((p.group.bind Principal.fault?).map Fault.group))

def Entry.fault? : Entry → Option Fault
  | .symlink target =>
    if target.isEmpty then some .targetEmpty
    else if '\x00' ∈ target.toList then some .targetNul
    else none
  | _ => none

/-- The fault of an attribute: its name must be usable as part of a record's key. -/
def Attribute.fault? (a : Attribute) : Option Fault :=
  if a.name.isEmpty then some .attributeUnnamed
  else if '\x00' ∈ a.name.toList ∨ '=' ∈ a.name.toList then some (.attributeName a.name)
  else none

/-- The fault of an entry that is to take the place of the root. -/
def Entry.rootFault? (entry : Entry) (path : TargetPath) : Option Fault :=
  if path.isRoot ∧ entry.kind ≠ .directory then some (.rootKind entry.kind) else none

/-- The first fault of a resource at a path. -/
def Resource.fault? (path : TargetPath) : Resource → Option Fault
  | .entry spec => (spec.permissions.fault?.or spec.entry.fault?).or (spec.entry.rootFault? path)
  | .permissions p => if p.isEmpty then some .permissionsEmpty else p.fault?
  | .xattr a => a.fault?
  | .absent => none

/-! ## Declarations -/

/-- Where a declaration was made: a manifest and the position in it. -/
structure Provenance where
  manifest : String
  order : Nat
  deriving DecidableEq, Repr

/-- Manifest and position, as messages and plans write them. -/
def Provenance.text (p : Provenance) : String := s!"{p.manifest}#{p.order}"

instance : ToString Provenance := ⟨Provenance.text⟩

structure Declaration where
  path : TargetPath
  resource : Resource
  provenance : Provenance
  /-- Paths that must be there first, beyond the containing directory. -/
  requires : List TargetPath
  /-- The resource passes every check. -/
  valid : resource.fault? path = none
  /-- No declaration requires its own path. -/
  path_not_mem_requires : path ∉ requires
  deriving DecidableEq

namespace Declaration

def kind (d : Declaration) : Kind := d.resource.kind

def make (path : String) (resource : Resource) (provenance : Provenance) :
    Except InvalidDeclaration Declaration :=
  match TargetPath.parse path with
  | .error fault => .error ⟨path, .path fault⟩
  | .ok target =>
    match h : resource.fault? target with
    | some fault => .error ⟨path, fault⟩
    | none => .ok ⟨target, resource, provenance, [], h, by simp⟩

/-- One more requirement; one that is there already changes nothing. -/
def require (d : Declaration) (raw : String) : Except InvalidDeclaration Declaration :=
  match TargetPath.parse raw with
  | .error fault => .error ⟨d.path.text, .requires fault⟩
  | .ok required =>
    if hself : required = d.path then .error ⟨d.path.text, .requiresSelf⟩
    else if required ∈ d.requires then .ok d
    else .ok { d with
      requires := d.requires ++ [required]
      path_not_mem_requires := by
        simp only [List.mem_append, List.mem_singleton, not_or]
        exact ⟨d.path_not_mem_requires, fun h => hself h.symm⟩ }

def requiring (d : Declaration) (raws : List String) : Except InvalidDeclaration Declaration :=
  raws.foldlM require d

end Declaration

end Provision
