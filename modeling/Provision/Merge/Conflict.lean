import Provision.Declaration

/-! # What stops a merge

* `Conflict` — two declarations that cannot both hold.
* `Dangling` — a declaration that refers to a path at which nothing comes to be.
* `MergeError` — either of them.
-/

namespace Provision

/-- Why two declarations cannot both hold. -/
inductive ConflictReason where
  /-- They create different kinds of entry at one path. -/
  | incompatibleKinds (existing incoming : Kind)
  /-- The path or one above it was removed before. -/
  | declaredAfterRemoval (incoming : Kind)
  /-- An entry lies beneath something that is no directory. -/
  | notADirectory (ancestor : TargetPath) (kind : Kind)
  /-- The later one changes a value where that is forbidden. -/
  | override (kind : Kind)
  deriving DecidableEq

def ConflictReason.message : ConflictReason → String
  | .incompatibleKinds existing incoming => s!"{incoming} declared where a {existing} already is"
  | .declaredAfterRemoval incoming => s!"{incoming} declared after the path was removed"
  | .notADirectory ancestor kind => s!"ancestor '{ancestor}' is a {kind}, not a directory"
  | .override kind => s!"{kind} overridden with a different value in strict mode"

/-- Two declarations that cannot both hold. -/
structure Conflict where
  path : TargetPath
  first : Provenance
  second : Provenance
  reason : ConflictReason
  deriving DecidableEq

def Conflict.message (c : Conflict) : String :=
  s!"conflict at '{c.path}': {c.reason.message} (declared by {c.first} and {c.second})"

/-- A declaration that refers to nothing. -/
inductive Dangling where
  /-- Only adjustments are declared at the path. -/
  | unresolvedTarget (path : TargetPath) (declaredBy : Provenance)
  /-- A required path is missing or removed. -/
  | missingDependency (path required : TargetPath) (declaredBy : Provenance)
  deriving DecidableEq

def Dangling.message : Dangling → String
  | .unresolvedTarget path source => s!"'{path}' is adjusted by {source} but nothing creates it"
  | .missingDependency path required _ => s!"'{path}' requires '{required}', which is not declared"

/-- What stops a merge. -/
inductive MergeError where
  | conflict (conflict : Conflict)
  | dangling (dangling : Dangling)
  deriving DecidableEq

def MergeError.message : MergeError → String
  | .conflict c => c.message
  | .dangling d => d.message

end Provision
