import Provision.Merge.Draft

/-! # Adding declarations

A builder takes declarations one by one, in the order in which they count, and keeps one draft per
path.

* `Builder.add` — one more declaration, and the conflict if it is refused.
* `Builder.addAll` — all declarations of a list up to the first conflict.
-/

namespace Provision

abbrev Drafts := SortedMap TargetPath Draft TargetPath.order

/-- The state of a merge. -/
structure Builder where
  strictness : Strictness
  drafts : Drafts
  warnings : List Warning
  /-- How many declarations were offered, refused ones included. -/
  seen : Nat

namespace Builder

def new (strictness : Strictness) : Builder := ⟨strictness, ∅, [], 0⟩

def draft (b : Builder) (path : TargetPath) : Draft :=
  (b.drafts.find? path).getD (.fresh b.seen)

def removalAt? (b : Builder) (path : TargetPath) : Option Provenance :=
  match (b.drafts.find? path).map Draft.standing with
  | some (.removed source) => some source
  | _ => none

/-- The nearest removal declared at a path or above it. -/
def removal? (b : Builder) (path : TargetPath) : Option Provenance :=
  (path :: path.ancestors).findSome? b.removalAt?

def withoutBeneath (drafts : Drafts) (path : TargetPath) : Drafts :=
  drafts.filter fun p _ => !p.isBeneath path

/-- A removal: all that was declared at the path or beneath it is void. -/
def remove (b : Builder) (d : Declaration) : Builder :=
  let kept := withoutBeneath b.drafts d.path
  let draft := b.draft d.path
  let cancelled := b.drafts.size - kept.size + (if draft.hasState then 1 else 0)
  let warnings := if cancelled = 0 then []
    else [⟨d.path, .removalCancels cancelled, [d.provenance]⟩]
  { b with
    drafts := kept.insert d.path ((draft.removed d.provenance).contribute d)
    warnings := b.warnings ++ warnings
    seen := b.seen + 1 }

/-- Something that creates or adjusts, at a path that no removal covers. -/
def merge (b : Builder) (d : Declaration) : Builder × Option Conflict :=
  let (draft, report) := (b.draft d.path).merge b.strictness d.resource d.provenance
  match report with
  | .refused reason first =>
    ({ b with drafts := b.drafts.insert d.path draft, seen := b.seen + 1 },
      some ⟨d.path, first, d.provenance, reason⟩)
  | .merged =>
    ({ b with drafts := b.drafts.insert d.path (draft.contribute d), seen := b.seen + 1 }, none)
  | .overrode notice first =>
    ({ b with
        drafts := b.drafts.insert d.path (draft.contribute d)
        warnings := b.warnings ++ [⟨d.path, notice, [first, d.provenance]⟩]
        seen := b.seen + 1 }, none)

/-- One more declaration, with the conflict if it is refused. -/
def add (b : Builder) (d : Declaration) : Builder × Option Conflict :=
  if d.resource = .absent then (b.remove d, none)
  else match b.removal? d.path with
    | some first =>
      ({ b with seen := b.seen + 1 },
        some ⟨d.path, first, d.provenance, .declaredAfterRemoval d.kind⟩)
    | none => b.merge d

/-- All declarations of a list, up to the first conflict. -/
def addAll (b : Builder) : List Declaration → Except Conflict Builder
  | [] => .ok b
  | d :: rest =>
    match b.add d with
    | (b, none) => b.addAll rest
    | (_, some conflict) => .error conflict

end Builder

end Provision
