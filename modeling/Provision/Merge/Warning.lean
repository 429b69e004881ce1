import Provision.Declaration

/-! # Warnings

A warning is a finding that does not stop the merge: a value was overridden, or a removal took
declarations with it.

* `Notice` — what was found; `Notice.isOverride` tells the two sorts apart.
* `Warning` — a notice at a path, with the declarations involved.
-/

namespace Provision

inductive PermissionField where
  | mode
  | owner
  | group
  deriving DecidableEq, Repr

def PermissionField.text : PermissionField → String
  | .mode => "mode"
  | .owner => "owner"
  | .group => "group"

/-- Whether a value is set both before and after, to different things. -/
def changes {α : Type} [DecidableEq α] (before after : Option α) : Bool :=
  match before, after with
  | some a, some b => a ≠ b
  | _, _ => false

/-- The fields that `later` sets to something else than `p` has set already. -/
def Permissions.changed (p later : Permissions) : List PermissionField :=
  [(PermissionField.mode, changes p.mode later.mode),
    (PermissionField.owner, changes p.owner later.owner),
    (PermissionField.group, changes p.group later.group)].filterMap
      fun (field, differs) => if differs then some field else Option.none

/-- What was found. -/
inductive Notice where
  /-- An entry took the place of a different one of its kind. -/
  | entryOverridden (kind : Kind)
  /-- Fields of a permission-set took other values. -/
  | fieldsOverridden (fields : List PermissionField)
  /-- An attribute took another value. -/
  | attributeOverridden (name : String)
  /-- A removal took what was declared at so many paths. -/
  | removalCancels (count : Nat)
  deriving DecidableEq, Repr

namespace Notice

def message : Notice → String
  | entryOverridden kind => s!"{kind} overridden by a later declaration"
  | fieldsOverridden fields =>
    ", ".intercalate (fields.map PermissionField.text) ++ " overridden by a later permission-set"
  | attributeOverridden name => s!"extended attribute '{name}' overridden"
  | removalCancels count => s!"removal cancels earlier declarations for {count} path(s)"

def isOverride : Notice → Bool
  | removalCancels _ => false
  | _ => true

end Notice

/-- A notice about a path. -/
structure Warning where
  path : TargetPath
  notice : Notice
  provenance : List Provenance
  deriving DecidableEq

/-- Path, message and declarations in one line. -/
def Warning.text (w : Warning) : String :=
  let sources := if w.provenance = [] then ""
    else " (" ++ ", ".intercalate (w.provenance.map Provenance.text) ++ ")"
  s!"{w.path}: {w.notice.message}{sources}"

end Provision
