import Provision.Octets
import Provision.Permissions

/-! # What can be declared

* `Entry` — something to create at a path: directory, file, link, pipe or device.
* `EntrySpec` — an entry with its metadata.
* `Resource` — an entry, an adjustment of one, or a removal.
* `Kind` — the kinds, by the names that messages and plans give them.
-/

namespace Provision

inductive DeviceClass where
  | char
  | block
  deriving DecidableEq, Repr

def DeviceClass.text : DeviceClass → String
  | .char => "char"
  | .block => "block"

theorem DeviceClass.text_injective {a b : DeviceClass} (h : a.text = b.text) : a = b := by
  cases a <;> cases b <;> first | rfl | exact absurd h (by decide)

/-- Something to create. -/
inductive Entry where
  | directory
  | file (content : Octets)
  | symlink (target : String)
  | fifo
  | device (deviceClass : DeviceClass) (major minor : Nat)
  deriving DecidableEq, Repr

inductive Kind where
  | directory
  | regularFile
  | symlink
  | fifo
  | device
  | permissionSet
  | extendedAttribute
  | absent
  deriving DecidableEq, Repr

namespace Kind

def text : Kind → String
  | directory => "directory"
  | regularFile => "regular-file"
  | symlink => "symlink"
  | fifo => "fifo"
  | device => "device"
  | permissionSet => "permission-set"
  | extendedAttribute => "extended-attribute"
  | absent => "absent"

theorem text_injective {a b : Kind} (h : a.text = b.text) : a = b := by
  cases a <;> cases b <;> first | rfl | exact absurd h (by decide)

instance : ToString Kind := ⟨text⟩

/-- Whether resources of this kind create something. -/
def isPrimary : Kind → Bool
  | permissionSet | extendedAttribute | absent => false
  | _ => true

end Kind

def Entry.kind : Entry → Kind
  | .directory => .directory
  | .file _ => .regularFile
  | .symlink _ => .symlink
  | .fifo => .fifo
  | .device .. => .device

/-- An entry with its metadata. A time that is unset is left to the output. -/
structure EntrySpec where
  entry : Entry
  permissions : Permissions
  mtime : Option Nat
  atime : Option Nat
  deriving DecidableEq, Repr

def EntrySpec.kind (spec : EntrySpec) : Kind := spec.entry.kind

def EntrySpec.bare (entry : Entry) : EntrySpec := ⟨entry, .none, none, none⟩

structure Attribute where
  name : String
  value : Octets
  deriving DecidableEq, Repr

/-- One declared unit of desired state. -/
inductive Resource where
  /-- Create an entry. -/
  | entry (spec : EntrySpec)
  /-- Adjust mode or ownership of the entry at the path. -/
  | permissions (permissions : Permissions)
  /-- Attach an attribute to the entry at the path. -/
  | xattr (xattr : Attribute)
  /-- See that nothing is at the path. -/
  | absent
  deriving DecidableEq, Repr

def Resource.kind : Resource → Kind
  | .entry spec => spec.kind
  | .permissions _ => .permissionSet
  | .xattr _ => .extendedAttribute
  | .absent => .absent

end Provision
