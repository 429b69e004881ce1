import Provision.SortedMap
import Provision.Merge.Conflict
import Provision.Merge.Warning

/-! # Drafts

A draft is what has been declared at one path so far. Each resource merges into it on its own, and
the report says whether that was accepted, overrode something, or was refused.

* `Draft.merge` — one more resource that creates or adjusts.
* `Draft.removed` — the draft after a removal at its path.
* `Draft.contribute` — the requirements and the provenance of an accepted declaration.
-/

namespace Provision

/-- Whether a declaration may change what an earlier one set. -/
inductive Strictness where
  | lenient
  | strict
  deriving DecidableEq, Repr

/-- What is known about the existence of a path. -/
inductive Standing where
  /-- Nothing but adjustments so far. -/
  | pending
  /-- An entry, as last declared. -/
  | entry (spec : EntrySpec) (declaredBy : Provenance)
  /-- A directory that nobody declared; it comes to be when a merge is finished. -/
  | implicit
  /-- Nothing may be here. -/
  | removed (declaredBy : Provenance)
  deriving DecidableEq

/-- The permission-sets of a path folded into one, with the last of their declarations. -/
structure Adjustment where
  permissions : Permissions
  last : Provenance
  deriving DecidableEq

/-- Attribute values by name, each with the declaration that set it. -/
abbrev AttributeDrafts := SortedMap String (Octets × Provenance) byteOrder

/-- What has been declared at one path. -/
structure Draft where
  standing : Standing
  adjustment : Option Adjustment
  xattrs : AttributeDrafts
  /-- Required paths, each with the first declaration that required it. -/
  requires : List (TargetPath × Provenance)
  provenance : List Provenance
  /-- The position of the first of them in the whole input. -/
  order : Nat

/-- What came of merging a resource. -/
inductive Report where
  /-- It agrees with what was there. -/
  | merged
  /-- It took the place of a value that the first declaration had set. -/
  | overrode (notice : Notice) (first : Provenance)
  /-- It cannot stand beside what the first declaration set. -/
  | refused (reason : ConflictReason) (first : Provenance)

namespace Draft

/-- Nothing declared yet. -/
def fresh (order : Nat) : Draft := ⟨.pending, none, ∅, [], [], order⟩

/-- Whether something is declared beyond a removal. -/
def hasState (draft : Draft) : Bool :=
  match draft.standing with
  | .entry .. | .implicit => true
  | _ => draft.adjustment.isSome || !draft.xattrs.isEmpty

/-! ## Merging -/

/-- An entry: the first creates, a later one of the same kind takes its place. -/
def create (strictness : Strictness) (draft : Draft) (spec : EntrySpec) (source : Provenance) :
    Draft × Report :=
  match draft.standing with
  | .pending | .implicit => ({ draft with standing := .entry spec source }, .merged)
  | .removed first => (draft, .refused (.declaredAfterRemoval spec.kind) first)
  | .entry existing first =>
    if existing.kind ≠ spec.kind then
      (draft, .refused (.incompatibleKinds existing.kind spec.kind) first)
    else if existing = spec then (draft, .merged)
    else if strictness = .strict then (draft, .refused (.override spec.kind) first)
    else ({ draft with standing := .entry spec source }, .overrode (.entryOverridden spec.kind) first)

/-- A permission-set: it is laid over the earlier ones field by field, even where the change is
    then refused. -/
def adjust (strictness : Strictness) (draft : Draft) (permissions : Permissions)
    (source : Provenance) : Draft × Report :=
  match draft.adjustment with
  | none => ({ draft with adjustment := some ⟨permissions, source⟩ }, .merged)
  | some ⟨earlier, last⟩ =>
    let adjusted := { draft with adjustment := some ⟨earlier.overlaid permissions, source⟩ }
    let changed := earlier.changed permissions
    if changed = [] then (adjusted, .merged)
    else if strictness = .strict then (adjusted, .refused (.override .permissionSet) last)
    else (adjusted, .overrode (.fieldsOverridden changed) last)

/-- An attribute: the last value under a name holds. -/
def attach (strictness : Strictness) (draft : Draft) (xattr : Attribute) (source : Provenance) :
    Draft × Report :=
  let attached := { draft with xattrs := draft.xattrs.insert xattr.name (xattr.value, source) }
  match draft.xattrs.find? xattr.name with
  | none => (attached, .merged)
  | some (value, first) =>
    if value = xattr.value then (draft, .merged)
    else if strictness = .strict then (draft, .refused (.override .extendedAttribute) first)
    else (attached, .overrode (.attributeOverridden xattr.name) first)

/-- The draft after a removal: what was declared here is void, only its provenance remains. -/
def removed (draft : Draft) (source : Provenance) : Draft :=
  { draft with standing := .removed source, adjustment := none, xattrs := ∅, requires := [] }

/-- One more resource. -/
def merge (strictness : Strictness) (draft : Draft) (resource : Resource) (source : Provenance) :
    Draft × Report :=
  match resource with
  | .entry spec => draft.create strictness spec source
  | .permissions permissions => draft.adjust strictness permissions source
  | .xattr xattr => draft.attach strictness xattr source
  | .absent => (draft.removed source, .merged)

/-- One more requirement, unless it is there. -/
def require (draft : Draft) (required : TargetPath) (source : Provenance) : Draft :=
  if draft.requires.any (·.1 = required) then draft
  else { draft with requires := draft.requires ++ [(required, source)] }

/-- The draft with the requirements and the provenance of a declaration that was accepted. -/
def contribute (draft : Draft) (d : Declaration) : Draft :=
  let required := d.requires.foldl (fun draft path => draft.require path d.provenance) draft
  { required with provenance := required.provenance ++ [d.provenance] }

end Draft

end Provision
