import Provision.Proofs.Merge.Reflection
import Provision.Proofs.Merge.Relabelling

/-! # What one more declaration does to a builder

* `Draft.merge_refused` — what a refused resource leaves of a draft; `Draft.merge_placedAt` — the position of a draft
  has no part in it.
* `Builder.add_cases` — a removal, a declaration at or beneath something removed, or a merge into the draft at the
  path; `Builder.merge_cases` — how such a merge ends.
* `Drafts.IsOpen.add` — a declaration keeps drafts open, whether or not it is accepted.
-/

namespace Provision

theorem EntrySpec.kind_ne_permissionSet (spec : EntrySpec) : spec.kind ≠ .permissionSet := by
  rw [kind]
  cases spec.entry <;> simp [Entry.kind]

/-! ## One resource -/

namespace Draft

variable {draft merged : Draft} {strictness : Strictness} {source first : Provenance} {reason : ConflictReason}

theorem create_refused {spec : EntrySpec}
    (h : draft.create strictness spec source = (merged, .refused reason first)) :
    merged = draft ∧ reason ≠ .override .permissionSet := by
  rw [create] at h
  cases hs : draft.standing with
  | pending => simp [hs] at h
  | implicit => simp [hs] at h
  | removed declaredBy =>
    simp only [hs, Prod.mk.injEq, Report.refused.injEq] at h
    obtain ⟨rfl, rfl, -⟩ := h
    exact ⟨rfl, by simp⟩
  | entry existing declaredBy =>
    simp only [hs] at h
    split at h
    · simp only [Prod.mk.injEq, Report.refused.injEq] at h
      obtain ⟨rfl, rfl, -⟩ := h
      exact ⟨rfl, by simp⟩
    · split at h
      · simp at h
      · split at h
        · simp only [Prod.mk.injEq, Report.refused.injEq] at h
          obtain ⟨rfl, rfl, -⟩ := h
          exact ⟨rfl, by simpa using spec.kind_ne_permissionSet⟩
        · simp at h

theorem attach_refused {xattr : Attribute}
    (h : draft.attach strictness xattr source = (merged, .refused reason first)) :
    merged = draft ∧ reason ≠ .override .permissionSet := by
  rw [attach] at h
  cases hfind : draft.xattrs.find? xattr.name with
  | none => simp [hfind] at h
  | some held =>
    simp only [hfind] at h
    split at h
    · simp at h
    · split at h
      · simp only [Prod.mk.injEq, Report.refused.injEq] at h
        obtain ⟨rfl, rfl, -⟩ := h
        exact ⟨rfl, by simp⟩
      · simp at h

theorem adjust_refused {permissions : Permissions}
    (h : draft.adjust strictness permissions source = (merged, .refused reason first)) :
    strictness = .strict ∧ reason = .override .permissionSet ∧
      ∃ earlier, draft.adjustment = some ⟨earlier, first⟩ ∧ earlier.changed permissions ≠ [] ∧
        merged = { draft with adjustment := some ⟨earlier.overlaid permissions, source⟩ } := by
  rw [adjust] at h
  cases hadjustment : draft.adjustment with
  | none => simp [hadjustment] at h
  | some adjustment =>
    simp only [hadjustment] at h
    split at h
    · simp at h
    · rename_i hchanged
      split at h
      · -- The draft that comes with the refusal is the one after the permission-set was laid over it.
        rename_i hstrict
        simp only [Prod.mk.injEq, Report.refused.injEq] at h
        obtain ⟨rfl, rfl, rfl⟩ := h
        exact ⟨hstrict, rfl, _, rfl, hchanged, rfl⟩
      · simp at h

/-- A resource that is refused leaves the draft as it was, or it is a permission-set that changes values where
    that is forbidden; then it has changed them. -/
theorem merge_refused {resource : Resource}
    (h : draft.merge strictness resource source = (merged, .refused reason first)) :
    (merged = draft ∧ reason ≠ .override .permissionSet) ∨
    strictness = .strict ∧ reason = .override .permissionSet ∧
      ∃ permissions earlier, resource = .permissions permissions ∧ draft.adjustment = some ⟨earlier, first⟩ ∧
        earlier.changed permissions ≠ [] ∧
        merged = { draft with adjustment := some ⟨earlier.overlaid permissions, source⟩ } := by
  cases resource with
  | entry spec => exact .inl (create_refused h)
  | xattr xattr => exact .inl (attach_refused h)
  | absent => simp [merge] at h
  | permissions permissions =>
    obtain ⟨hstrict, hreason, earlier, hmerged⟩ := adjust_refused h
    exact .inr ⟨hstrict, hreason, permissions, earlier, rfl, hmerged⟩

theorem merge_fresh (strictness : Strictness) (order : Nat) (resource : Resource) (source : Provenance) :
    ((fresh order).merge strictness resource source).2 = .merged := by
  cases resource <;> rfl

/-- Provenances are added by themselves, and no resource makes an undeclared directory. -/
theorem merge_frame (draft : Draft) (strictness : Strictness) (resource : Resource) (source : Provenance) :
    (draft.merge strictness resource source).1.provenance = draft.provenance ∧
      (draft.standing ≠ .implicit → (draft.merge strictness resource source).1.standing ≠ .implicit) := by
  cases resource with
  | absent => simp [merge, removed]
  | permissions permissions =>
    obtain ⟨adjustment, heq, -⟩ := draft.adjust_overlay strictness permissions source
    rw [merge, heq]
    exact ⟨rfl, id⟩
  | xattr xattr =>
    rw [merge, attach]
    split
    · exact ⟨rfl, id⟩
    · split
      · exact ⟨rfl, id⟩
      · split <;> exact ⟨rfl, id⟩
  | entry spec =>
    rw [merge, create]
    split
    · exact ⟨rfl, by simp⟩
    · exact ⟨rfl, by simp⟩
    · exact ⟨rfl, id⟩
    · split
      · exact ⟨rfl, id⟩
      · split
        · exact ⟨rfl, id⟩
        · split
          · exact ⟨rfl, id⟩
          · exact ⟨rfl, by simp⟩

theorem contribute_provenance (draft : Draft) (d : Declaration) :
    (draft.contribute d).provenance = draft.provenance ++ [d.provenance] := by
  obtain ⟨requires, heq, -⟩ := draft.contribute_eq d
  rw [heq]

end Draft

/-! ## Positions -/

def Relabelling.moved (position : Nat → Nat) : Relabelling := ⟨id, id, position, by simp⟩

namespace Draft

def placedAt (draft : Draft) (order : Nat) : Draft := { draft with order }

theorem relabel_moved (position : Nat → Nat) (draft : Draft) :
    draft.relabel (.moved position) = draft.placedAt (position draft.order) := by
  obtain ⟨standing, adjustment, ⟨xattrs, hxattrs⟩, requires, provenance, order⟩ := draft
  cases standing <;> cases adjustment <;>
    simp [relabel, placedAt, Relabelling.moved, Standing.relabel, SortedMap.mapValues]

theorem create_placedAt (draft : Draft) (order : Nat) (strictness : Strictness) (spec : EntrySpec)
    (source : Provenance) : (draft.placedAt order).create strictness spec source =
      ((draft.create strictness spec source).1.placedAt order, (draft.create strictness spec source).2) := by
  simp only [create, placedAt]
  split
  · rfl
  · rfl
  · rfl
  · split
    · rfl
    · split
      · rfl
      · split <;> rfl

theorem adjust_placedAt (draft : Draft) (order : Nat) (strictness : Strictness) (permissions : Permissions)
    (source : Provenance) : (draft.placedAt order).adjust strictness permissions source =
      ((draft.adjust strictness permissions source).1.placedAt order,
        (draft.adjust strictness permissions source).2) := by
  simp only [adjust, placedAt]
  split
  · rfl
  · split
    · rfl
    · split <;> rfl

theorem attach_placedAt (draft : Draft) (order : Nat) (strictness : Strictness) (xattr : Attribute)
    (source : Provenance) : (draft.placedAt order).attach strictness xattr source =
      ((draft.attach strictness xattr source).1.placedAt order, (draft.attach strictness xattr source).2) := by
  simp only [attach, placedAt]
  split
  · rfl
  · split
    · rfl
    · split <;> rfl

theorem merge_placedAt (draft : Draft) (order : Nat) (strictness : Strictness) (resource : Resource)
    (source : Provenance) : (draft.placedAt order).merge strictness resource source =
      ((draft.merge strictness resource source).1.placedAt order,
        (draft.merge strictness resource source).2) := by
  cases resource with
  | entry spec => exact draft.create_placedAt order strictness spec source
  | permissions permissions => exact draft.adjust_placedAt order strictness permissions source
  | xattr xattr => exact draft.attach_placedAt order strictness xattr source
  | absent => rfl

theorem merge_order (draft : Draft) (strictness : Strictness) (resource : Resource) (source : Provenance) :
    (draft.merge strictness resource source).1.order = draft.order :=
  congrArg (·.1.order) (draft.merge_placedAt draft.order strictness resource source)

theorem require_placedAt (draft : Draft) (order : Nat) (required : TargetPath) (source : Provenance) :
    (draft.placedAt order).require required source = (draft.require required source).placedAt order := by
  rw [require, require, apply_ite (placedAt · order)]
  rfl

theorem contribute_placedAt (draft : Draft) (order : Nat) (d : Declaration) :
    (draft.placedAt order).contribute d = (draft.contribute d).placedAt order := by
  rw [contribute, contribute]
  generalize d.requires = required
  induction required generalizing draft with
  | nil => rfl
  | cons path required ih =>
    rw [List.foldl_cons, List.foldl_cons, require_placedAt]
    exact ih (draft.require path d.provenance)

theorem contribute_order (draft : Draft) (d : Declaration) : (draft.contribute d).order = draft.order :=
  congrArg (·.order) (draft.contribute_placedAt draft.order d)

end Draft

/-! ## One declaration -/

namespace Builder

/-- What becomes of a declaration: it removes, it comes too late, or it is merged. -/
theorem add_cases (b : Builder) (d : Declaration) :
    (d.IsRemoval ∧ b.add d = (b.remove d, none)) ∨
    (¬d.IsRemoval ∧ ∃ first, b.removal? d.path = some first ∧ b.add d = ({ b with seen := b.seen + 1 },
      some ⟨d.path, first, d.provenance, .declaredAfterRemoval d.kind⟩)) ∨
    (¬d.IsRemoval ∧ b.removal? d.path = none ∧ b.add d = b.merge d) := by
  rw [add]
  by_cases hd : d.resource = .absent
  · exact .inl ⟨hd, if_pos hd⟩
  · rw [if_neg hd]
    cases hremoval : b.removal? d.path with
    | some first => exact .inr (.inl ⟨hd, first, rfl, rfl⟩)
    | none => exact .inr (.inr ⟨hd, rfl, rfl⟩)

theorem add_of_removal (b : Builder) {d : Declaration} (hd : d.IsRemoval) : b.add d = (b.remove d, none) := if_pos hd

/-- A removal warns of nothing but what it takes with it. -/
theorem warnings_remove_cases (b : Builder) (d : Declaration) : (b.remove d).warnings = b.warnings ∨
    ∃ count, (b.remove d).warnings = b.warnings ++ [⟨d.path, .removalCancels count, [d.provenance]⟩] := by
  rw [remove]
  generalize b.drafts.size - (withoutBeneath b.drafts d.path).size + _ = cancelled
  by_cases hnone : cancelled = 0
  · exact .inl (by simp [hnone])
  · exact .inr ⟨cancelled, by simp [hnone]⟩

section Merge

variable {b : Builder} {d : Declaration} {draft : Draft} {first : Provenance}

theorem merge_of_merged (h : (b.draft d.path).merge b.strictness d.resource d.provenance = (draft, .merged)) :
    b.merge d =
      ({ b with drafts := b.drafts.insert d.path (draft.contribute d), seen := b.seen + 1 }, none) := by
  rw [merge, h]

theorem merge_of_overrode {notice : Notice}
    (h : (b.draft d.path).merge b.strictness d.resource d.provenance = (draft, .overrode notice first)) :
    b.merge d =
      ({ b with
        drafts := b.drafts.insert d.path (draft.contribute d)
        warnings := b.warnings ++ [⟨d.path, notice, [first, d.provenance]⟩]
        seen := b.seen + 1 }, none) := by
  rw [merge, h]

theorem merge_of_refused {reason : ConflictReason}
    (h : (b.draft d.path).merge b.strictness d.resource d.provenance = (draft, .refused reason first)) :
    b.merge d =
      ({ b with drafts := b.drafts.insert d.path draft, seen := b.seen + 1 },
        some ⟨d.path, first, d.provenance, reason⟩) := by
  rw [merge, h]

end Merge

/-- How a merge ends: the draft is put back, with the requirements and the provenance of the declaration unless it
    is refused. -/
theorem merge_cases (b : Builder) (d : Declaration) :
    ∃ draft report, (b.draft d.path).merge b.strictness d.resource d.provenance = (draft, report) ∧
      ((∃ reason first, report = .refused reason first ∧
          b.merge d = ({ b with drafts := b.drafts.insert d.path draft, seen := b.seen + 1 },
            some ⟨d.path, first, d.provenance, reason⟩)) ∨
        ¬report.IsRefusal ∧ ∃ more,
          b.merge d = ({ b with
            drafts := b.drafts.insert d.path (draft.contribute d)
            warnings := b.warnings ++ more
            seen := b.seen + 1 }, none)) := by
  cases hmerge : (b.draft d.path).merge b.strictness d.resource d.provenance with
  | mk draft report =>
    refine ⟨draft, report, rfl, ?_⟩
    cases report with
    | refused reason first => exact .inl ⟨reason, first, rfl, merge_of_refused hmerge⟩
    | merged => exact .inr ⟨Report.not_isRefusal_merged, [], by simp [merge_of_merged hmerge]⟩
    | overrode notice first => exact .inr ⟨Report.not_isRefusal_overrode _ _, _, merge_of_overrode hmerge⟩

/-- Where a draft is refused something, it was there before. -/
theorem find?_of_refused {b : Builder} {p : TargetPath} {resource : Resource} {source first : Provenance}
    {reason : ConflictReason} {merged : Draft}
    (h : (b.draft p).merge b.strictness resource source = (merged, .refused reason first)) :
    b.drafts.find? p = some (b.draft p) := by
  rw [draft] at h ⊢
  cases hfind : b.drafts.find? p with
  | some draft => rfl
  | none =>
    -- A draft without declarations refuses nothing.
    have hmerged := Draft.merge_fresh b.strictness b.seen resource source
    rw [hfind, Option.getD_none] at h
    rw [h] at hmerged
    cases hmerged

end Builder

/-! ## Open drafts -/

namespace Drafts.IsOpen

/-- Drafts stay open when those that are new have a declaration and are no directories that nobody declared. -/
theorem of_found {drafts drafts' : Drafts} (h : drafts.IsOpen)
    (hfound : ∀ {p draft}, drafts'.find? p = some draft → drafts.find? p = some draft ∨
      draft.standing ≠ .implicit ∧ draft.provenance ≠ []) : drafts'.IsOpen where
  plain hfind := (hfound hfind).elim h.plain And.left
  named hfind := (hfound hfind).elim h.named And.right

theorem insert {drafts : Drafts} (h : drafts.IsOpen) {p : TargetPath} {draft : Draft}
    (plain : draft.standing ≠ .implicit) (named : draft.provenance ≠ []) :
    Drafts.IsOpen (drafts.insert p draft) := by
  apply h.of_found
  intro q found hfind
  by_cases hq : q = p
  · subst hq
    rw [SortedMap.find?_insert_self] at hfind
    cases hfind
    exact .inr ⟨plain, named⟩
  · rw [SortedMap.find?_insert_of_ne _ hq] at hfind
    exact .inl hfind

theorem standing_draft {b : Builder} (h : Drafts.IsOpen b.drafts) (p : TargetPath) :
    (b.draft p).standing ≠ .implicit := by
  rw [Builder.draft]
  cases hfind : b.drafts.find? p with
  | none => simp [Draft.fresh]
  | some draft => exact h.plain hfind

theorem merge {b : Builder} (h : Drafts.IsOpen b.drafts) (d : Declaration) :
    Drafts.IsOpen (b.merge d).1.drafts := by
  obtain ⟨draft, report, hmerge, ⟨reason, first, rfl, heq⟩ | ⟨-, more, heq⟩⟩ := b.merge_cases d
  · obtain ⟨hprovenance, hstanding⟩ :=
      (b.draft d.path).merge_frame b.strictness d.resource d.provenance
    rw [hmerge] at hprovenance hstanding
    rw [heq]
    refine h.insert (hstanding (h.standing_draft d.path)) ?_
    rw [hprovenance]
    exact h.named (Builder.find?_of_refused hmerge)
  · obtain ⟨-, hstanding⟩ := (b.draft d.path).merge_frame b.strictness d.resource d.provenance
    rw [hmerge] at hstanding
    rw [heq]
    refine h.insert ?_ ?_
    · rw [Draft.contribute_standing]
      exact hstanding (h.standing_draft d.path)
    · simp [Draft.contribute_provenance]

theorem remove {b : Builder} (h : Drafts.IsOpen b.drafts) (d : Declaration) :
    Drafts.IsOpen (b.remove d).drafts := by
  apply h.of_found
  intro p draft hfind
  rw [Builder.find?_remove] at hfind
  split at hfind
  · cases hfind
    simp [Draft.contribute_standing, Draft.contribute_provenance, Draft.removed]
  · split at hfind
    · cases hfind
    · exact .inl hfind

theorem add {b : Builder} (h : Drafts.IsOpen b.drafts) (d : Declaration) :
    Drafts.IsOpen (b.add d).1.drafts := by
  obtain ⟨-, heq⟩ | ⟨-, first, -, heq⟩ | ⟨-, -, heq⟩ := b.add_cases d
  · rw [heq]
    exact h.remove d
  · rw [heq]
    exact h
  · rw [heq]
    exact h.merge d

theorem addAll {b b' : Builder} (h : Drafts.IsOpen b.drafts) {ds : List Declaration}
    (hadd : b.addAll ds = .ok b') : Drafts.IsOpen b'.drafts := by
  induction ds generalizing b with
  | nil =>
    cases hadd
    exact h
  | cons d rest ih =>
    have hd := h.add d
    rw [Builder.addAll] at hadd
    split at hadd
    · rename_i next heq
      rw [heq] at hd
      exact ih hd hadd
    · cases hadd

end Drafts.IsOpen

theorem Drafts.isOpen_new (strictness : Strictness) : Drafts.IsOpen (Builder.new strictness).drafts where
  plain h := by cases h
  named h := by cases h

end Provision
