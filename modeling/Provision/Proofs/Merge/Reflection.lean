import Provision.Proofs.SortedMap
import Provision.Proofs.Merge.InForce

/-! # Drafts reflect declarations

Each draft of a builder is the merge of the declarations in force at its path, and a path has a draft
exactly when there are any.

* `Draft.Reflects` — a draft against the declarations at its path; `Reflects.merge` and
  `Reflects.removed` keep it as one more comes.
* `Builder.Reflects` — a builder against all declarations, with what holds beneath a removal.
* `Builder.Reflects.step` — what one more declaration has to do; `Builder.reflects_of_addAll` — a run of them.
-/

namespace Provision

/-! ## Requirements and provenance -/

namespace Draft

theorem require_eq (draft : Draft) (required : TargetPath) (source : Provenance) :
    ∃ requires, draft.require required source = { draft with requires } ∧
      ∀ q, q ∈ requires.map (·.1) ↔ q ∈ draft.requires.map (·.1) ∨ q = required := by
  unfold require
  split
  · rename_i h
    refine ⟨draft.requires, rfl, fun q => ⟨.inl, ?_⟩⟩
    rintro (hq | rfl)
    · exact hq
    · obtain ⟨r, hr, heq⟩ := List.any_eq_true.1 h
      exact of_decide_eq_true heq ▸ List.mem_map_of_mem hr
  · exact ⟨_, rfl, by simp⟩

theorem foldl_require_eq (required : List TargetPath) (source : Provenance) (draft : Draft) :
    ∃ requires, required.foldl (fun draft path => draft.require path source) draft =
        { draft with requires } ∧
      ∀ q, q ∈ requires.map (·.1) ↔ q ∈ draft.requires.map (·.1) ∨ q ∈ required := by
  induction required generalizing draft with
  | nil => exact ⟨draft.requires, rfl, by simp⟩
  | cons path required ih =>
    obtain ⟨requires, heq, hmem⟩ := draft.require_eq path source
    obtain ⟨requires', heq', hmem'⟩ := ih (draft.require path source)
    refine ⟨requires', by rw [List.foldl_cons, heq', heq], fun q => ?_⟩
    rw [hmem', heq, hmem, List.mem_cons, or_assoc]

/-- An accepted declaration adds its requirements and its provenance, and nothing else. -/
theorem contribute_eq (draft : Draft) (d : Declaration) :
    ∃ requires, draft.contribute d =
        { draft with requires, provenance := draft.provenance ++ [d.provenance] } ∧
      ∀ q, q ∈ requires.map (·.1) ↔ q ∈ draft.requires.map (·.1) ∨ q ∈ d.requires := by
  obtain ⟨requires, heq, hmem⟩ := foldl_require_eq d.requires d.provenance draft
  exact ⟨requires, by rw [contribute, heq], hmem⟩

@[simp]
theorem contribute_standing (draft : Draft) (d : Declaration) :
    (draft.contribute d).standing = draft.standing := by
  obtain ⟨_, heq, -⟩ := draft.contribute_eq d
  rw [heq]

end Draft

/-! ## One draft -/

/-- What is known about the existence of a path follows from the declarations there: something is removed,
    or the last entry stands, or there are only adjustments. -/
def Standing.Reflects (standing : Standing) (ds : List Declaration) : Prop :=
  match standing with
  | .pending => lastOf Declaration.entry? ds = none ∧ ∀ d ∈ ds, ¬d.IsRemoval
  | .entry spec _ => lastOf Declaration.entry? ds = some spec ∧ ∀ d ∈ ds, ¬d.IsRemoval
  | .implicit => False
  | .removed _ => ∃ d ∈ ds, d.IsRemoval

namespace Report

/-- Whether a report is a refusal. -/
def IsRefusal (report : Report) : Prop :=
  ∃ reason first, report = .refused reason first

@[simp]
theorem isRefusal_refused (reason : ConflictReason) (first : Provenance) : (refused reason first).IsRefusal :=
  ⟨reason, first, rfl⟩

@[simp]
theorem not_isRefusal_merged : ¬merged.IsRefusal := by
  rintro ⟨_, _, h⟩
  cases h

@[simp]
theorem not_isRefusal_overrode (notice : Notice) (first : Provenance) : ¬(overrode notice first).IsRefusal := by
  rintro ⟨_, _, h⟩
  cases h

end Report

namespace Draft

theorem overlay_of_none {draft : Draft} (h : draft.adjustment = none) : draft.overlay = .none := by
  rw [overlay, h]
  rfl

theorem overlay_of_some {draft : Draft} {adjustment : Adjustment} (h : draft.adjustment = some adjustment) :
    draft.overlay = adjustment.permissions := by
  rw [overlay, h]
  rfl

/-- A draft is the merge of the declarations at its path: from the last removal on, each field and each
    attribute has the last value that was set, and each requirement is kept. -/
structure Reflects (draft : Draft) (ds : List Declaration) : Prop where
  standing : draft.standing.Reflects ds
  overlay : draft.overlay = lastSet (fromRemoval ds)
  xattrs : ∀ name, (draft.xattrs.find? name).map (·.1) =
    lastOf (Declaration.attribute? name) (fromRemoval ds)
  requires : ∀ q, q ∈ draft.requires.map (·.1) ↔ ∃ d ∈ fromRemoval ds, q ∈ d.requires

theorem reflects_fresh (order : Nat) : Reflects (fresh order) [] where
  standing := ⟨rfl, by simp⟩
  overlay := rfl
  xattrs _ := rfl
  requires := by simp [fresh]

/-- Unless something was removed, all declarations count. -/
theorem Reflects.not_removal {draft : Draft} {ds : List Declaration} (h : draft.Reflects ds)
    (hstanding : ∀ source, draft.standing ≠ .removed source) : ∀ d ∈ ds, ¬d.IsRemoval := by
  have := h.standing
  cases hs : draft.standing with
  | pending => rw [hs] at this; exact this.2
  | entry spec source => rw [hs] at this; exact this.2
  | implicit => rw [hs] at this; exact this.elim
  | removed source => exact absurd hs (hstanding source)

/-- A removal makes everything before it void. -/
theorem reflects_removed (draft : Draft) (ds : List Declaration) {d : Declaration}
    (h : d.IsRemoval) : ((draft.removed d.provenance).contribute d).Reflects (ds ++ [d]) := by
  have hresource : d.resource = .absent := h
  obtain ⟨requires, heq, hmem⟩ := (draft.removed d.provenance).contribute_eq d
  have hfrom : fromRemoval (ds ++ [d]) = [] ++ [d] := by rw [fromRemoval_concat, if_pos h]; rfl
  have hpermissions : d.permissions? = none := by rw [Declaration.permissions?, hresource]
  rw [heq]
  refine ⟨⟨d, by simp, h⟩, ?_, fun name => ?_, fun q => ?_⟩
  · rw [hfrom, lastSet_concat_of_none hpermissions]
    rfl
  · have hattribute : d.attribute? name = none := by rw [Declaration.attribute?, hresource]
    rw [hfrom, lastOf_concat, hattribute]
    rfl
  · rw [hfrom, hmem]
    simp [Draft.removed]

/-- What a draft has to show after one more declaration that removes nothing; its requirements and its
    provenance are added by themselves. -/
theorem reflects_contribute {draft : Draft} {ds : List Declaration} {d : Declaration}
    (hds : ∀ d' ∈ ds ++ [d], ¬d'.IsRemoval) (hstanding : draft.standing.Reflects (ds ++ [d]))
    (hoverlay : draft.overlay = lastSet (ds ++ [d]))
    (hxattrs : ∀ name, (draft.xattrs.find? name).map (·.1) =
      lastOf (Declaration.attribute? name) (ds ++ [d]))
    (hrequires : ∀ q, q ∈ draft.requires.map (·.1) ↔ ∃ d ∈ ds, q ∈ d.requires) :
    (draft.contribute d).Reflects (ds ++ [d]) := by
  obtain ⟨requires, heq, hmem⟩ := draft.contribute_eq d
  rw [heq]
  refine ⟨hstanding, ?_, ?_, ?_⟩
  · rw [fromRemoval_eq_self hds]
    exact hoverlay
  · rw [fromRemoval_eq_self hds]
    exact hxattrs
  · intro q
    rw [fromRemoval_eq_self hds, hmem, hrequires]
    simp only [List.mem_append, List.mem_singleton]
    constructor
    · rintro (⟨d', hd', hq⟩ | hq)
      · exact ⟨d', .inl hd', hq⟩
      · exact ⟨d, .inr rfl, hq⟩
    · rintro ⟨d', hd' | rfl, hq⟩
      · exact .inl ⟨d', hd', hq⟩
      · exact .inr hq

section Merge

variable {draft : Draft} {ds : List Declaration} {d : Declaration} {strictness : Strictness}

/-- An accepted entry stands, in place of the earlier one or because it is the same. -/
theorem create_accepted {spec : EntrySpec} {source : Provenance}
    (haccepted : ¬(draft.create strictness spec source).2.IsRefusal) :
    (∃ declaredBy, (draft.create strictness spec source).1 =
      { draft with standing := .entry spec declaredBy }) ∧
    ∀ existing first, draft.standing = .entry existing first →
      existing.kind = spec.kind ∧ (strictness = .strict → existing = spec) := by
  unfold create at *
  cases hs : draft.standing with
  | pending => exact ⟨⟨source, rfl⟩, by simp⟩
  | implicit => exact ⟨⟨source, rfl⟩, by simp⟩
  | removed first =>
    rw [hs] at haccepted
    exact absurd ⟨_, _, rfl⟩ haccepted
  | entry existing first =>
    rw [hs] at haccepted
    simp only [Standing.entry.injEq] at *
    split at haccepted
    · exact absurd ⟨_, _, rfl⟩ haccepted
    · rename_i hkind
      rw [if_neg hkind]
      split at haccepted
      · rename_i heq
        rw [if_pos heq]
        refine ⟨⟨first, by rw [← heq, ← hs]⟩, ?_⟩
        rintro _ _ ⟨rfl, rfl⟩
        exact ⟨not_not.1 hkind, fun _ => heq⟩
      · rename_i hne
        rw [if_neg hne]
        split at haccepted
        · exact absurd ⟨_, _, rfl⟩ haccepted
        · rename_i hstrict
          rw [if_neg hstrict]
          refine ⟨⟨source, rfl⟩, ?_⟩
          rintro _ _ ⟨rfl, rfl⟩
          exact ⟨not_not.1 hkind, fun h => absurd h hstrict⟩

/-- A permission-set is laid over the earlier ones, whatever comes of it. -/
theorem adjust_overlay (draft : Draft) (strictness : Strictness) (permissions : Permissions)
    (source : Provenance) :
    ∃ adjustment, (draft.adjust strictness permissions source).1 = { draft with adjustment } ∧
      ({ draft with adjustment } : Draft).overlay = draft.overlay.overlaid permissions := by
  unfold adjust
  cases hadjustment : draft.adjustment with
  | none =>
    -- The first permission-set is kept as it is, which is what laying it over nothing comes to.
    refine ⟨_, rfl, ?_⟩
    rw [overlay_of_none hadjustment, overlay_of_some rfl]
    simp [Permissions.overlaid, Permissions.none]
  | some adjustment =>
    refine ⟨some ⟨adjustment.permissions.overlaid permissions, source⟩, ?_, ?_⟩
    · simp only
      split
      · rfl
      · split <;> rfl
    · rw [overlay_of_some hadjustment, overlay_of_some rfl]

/-- An accepted attribute has its value, and the others have theirs. -/
theorem attach_accepted {xattr : Attribute} {source : Provenance}
    (haccepted : ¬(draft.attach strictness xattr source).2.IsRefusal) :
    (∃ xattrs, (draft.attach strictness xattr source).1 = { draft with xattrs } ∧
      ∀ name, (xattrs.find? name).map (·.1) =
        if xattr.name = name then some xattr.value else (draft.xattrs.find? name).map (·.1)) ∧
    ∀ value first, draft.xattrs.find? xattr.name = some (value, first) →
      strictness = .strict → value = xattr.value := by
  have hinsert : ∀ name, ((draft.xattrs.insert xattr.name (xattr.value, source)).find? name).map
      (·.1) = if xattr.name = name then some xattr.value
        else (draft.xattrs.find? name).map (·.1) := by
    intro name
    by_cases hname : xattr.name = name
    · subst hname
      rw [SortedMap.find?_insert_self, if_pos rfl]
      rfl
    · rw [SortedMap.find?_insert_of_ne _ (Ne.symm hname), if_neg hname]
  unfold attach at *
  cases hfind : draft.xattrs.find? xattr.name with
  | none => exact ⟨⟨_, rfl, hinsert⟩, by simp⟩
  | some held =>
    obtain ⟨value, first⟩ := held
    rw [hfind] at haccepted
    simp only [Option.some.injEq, Prod.mk.injEq] at *
    split at haccepted
    · rename_i hvalue
      rw [if_pos hvalue]
      refine ⟨⟨draft.xattrs, rfl, fun name => ?_⟩, ?_⟩
      · split
        · rename_i hname
          rw [← hname, hfind, ← hvalue]
          rfl
        · rfl
      · rintro _ _ ⟨rfl, rfl⟩ _
        exact hvalue
    · rename_i hvalue
      rw [if_neg hvalue]
      split at haccepted
      · exact absurd ⟨_, _, rfl⟩ haccepted
      · rename_i hstrict
        rw [if_neg hstrict]
        exact ⟨⟨_, rfl, hinsert⟩, fun _ _ _ h => absurd h hstrict⟩

theorem Reflects.merge (h : draft.Reflects ds) (hd : ¬d.IsRemoval)
    (hopen : ∀ first, draft.standing ≠ .removed first)
    (haccepted : ¬(draft.merge strictness d.resource d.provenance).2.IsRefusal) :
    ((draft.merge strictness d.resource d.provenance).1.contribute d).Reflects (ds ++ [d]) := by
  -- As no removal is among the declarations, all of them count.
  have hold := h.not_removal hopen
  have hds : ∀ d' ∈ ds ++ [d], ¬d'.IsRemoval := by
    intro d' hd'
    rcases List.mem_append.1 hd' with hd' | hd'
    · exact hold d' hd'
    · rwa [List.mem_singleton.1 hd']
  have hfrom := fromRemoval_eq_self hold
  have hoverlay := h.overlay
  have hxattrs := h.xattrs
  have hrequires := h.requires
  rw [hfrom] at hoverlay hxattrs hrequires
  -- An adjustment leaves what is known about the existence of the path as it was.
  have hkeep : d.entry? = none → draft.standing.Reflects (ds ++ [d]) := by
    intro hentry
    have := h.standing
    unfold Standing.Reflects at *
    rw [lastOf_concat, hentry, Option.none_or]
    cases hs : draft.standing with
    | pending => rw [hs] at this; exact ⟨this.1, hds⟩
    | entry spec source => rw [hs] at this; exact ⟨this.1, hds⟩
    | implicit => rw [hs] at this; exact this
    | removed first => exact absurd hs (hopen first)
  cases hresource : d.resource with
  | entry spec =>
    rw [hresource] at haccepted
    obtain ⟨⟨declaredBy, heq⟩, -⟩ := create_accepted haccepted
    rw [Draft.merge, heq]
    refine reflects_contribute hds ⟨?_, hds⟩ ?_ (fun name => ?_) hrequires
    · simp [lastOf_concat, Declaration.entry?, hresource]
    · rw [lastSet_concat_of_none (by rw [Declaration.permissions?, hresource])]
      exact hoverlay
    · rw [lastOf_concat, Declaration.attribute?, hresource]
      exact hxattrs name
  | permissions permissions =>
    obtain ⟨adjustment, heq, hlaid⟩ :=
      draft.adjust_overlay strictness permissions d.provenance
    rw [Draft.merge, heq]
    refine reflects_contribute hds (hkeep (by rw [Declaration.entry?, hresource])) ?_
      (fun name => ?_) hrequires
    · rw [lastSet_concat_of_some (by rw [Declaration.permissions?, hresource]), ← hoverlay]
      exact hlaid
    · rw [lastOf_concat, Declaration.attribute?, hresource]
      exact hxattrs name
  | xattr xattr =>
    rw [hresource] at haccepted
    obtain ⟨⟨xattrs, heq, hfind⟩, -⟩ := attach_accepted haccepted
    rw [Draft.merge, heq]
    refine reflects_contribute hds (hkeep (by rw [Declaration.entry?, hresource])) ?_
      (fun name => ?_) hrequires
    · rw [lastSet_concat_of_none (by rw [Declaration.permissions?, hresource])]
      exact hoverlay
    · rw [hfind name, lastOf_concat, Declaration.attribute?, hresource]
      simp only
      split
      · rfl
      · exact hxattrs name
  | absent => exact absurd hresource hd

end Merge

end Draft

/-! ## All drafts -/

namespace Builder

/-- A builder reflects declarations: so does each draft, there is one at a path exactly when a declaration
    is in force there, and beneath a removal there are only removals. -/
structure Reflects (b : Builder) (ds : List Declaration) : Prop where
  draft : ∀ {p draft}, b.drafts.find? p = some draft →
    draft.Reflects (inForce p ds) ∧ inForce p ds ≠ []
  none : ∀ {p}, b.drafts.find? p = none → inForce p ds = []
  beneath : ∀ {p q draft}, b.drafts.find? p = some draft → q ∈ p.ancestors →
    (b.removalAt? q).isSome → (b.removalAt? p).isSome

theorem reflects_new (strictness : Strictness) : (new strictness).Reflects [] where
  draft h := by cases h
  none _ := rfl
  beneath h := by cases h

theorem removalAt?_eq_some_iff {b : Builder} {p : TargetPath} {source : Provenance} :
    b.removalAt? p = some source ↔
      ∃ draft, b.drafts.find? p = some draft ∧ draft.standing = .removed source := by
  unfold removalAt?
  cases b.drafts.find? p with
  | none => simp
  | some draft => cases hs : draft.standing <;> simp [hs]

theorem Reflects.draft_at {b : Builder} {ds : List Declaration} (h : b.Reflects ds)
    (p : TargetPath) : (b.draft p).Reflects (inForce p ds) := by
  unfold Builder.draft
  cases hfind : b.drafts.find? p with
  | none => rw [h.none hfind]; exact Draft.reflects_fresh _
  | some draft => exact (h.draft hfind).1

/-- One more declaration keeps a builder reflecting when the draft at its path goes on reflecting, the
    drafts that it sweeps away are gone and all others are as they were. -/
theorem Reflects.step {b b' : Builder} {ds : List Declaration} (h : b.Reflects ds) {d : Declaration}
    {draft : Draft} (hself : b'.drafts.find? d.path = some draft)
    (hdraft : draft.Reflects (inForce d.path ds ++ [d]))
    (hother : ∀ p, p ≠ d.path →
      b'.drafts.find? p = if d.Sweeps p then Option.none else b.drafts.find? p)
    (hremoved : (b'.removalAt? d.path).isSome ↔ d.IsRemoval)
    (hopen : ¬d.IsRemoval → ∀ q ∈ d.path.ancestors, b.removalAt? q = Option.none) :
    b'.Reflects (ds ++ [d]) := by
  have hkept : ∀ {p}, p ≠ d.path → ¬d.Sweeps p → b'.drafts.find? p = b.drafts.find? p := by
    intro p hp hsweeps
    rw [hother p hp, if_neg hsweeps]
  refine ⟨?draft, ?none, ?beneath⟩
  case draft =>
    intro p found hfind
    by_cases hp : p = d.path
    · subst hp
      cases hself.symm.trans hfind
      rw [inForce_concat_self]
      exact ⟨hdraft, by simp⟩
    · rw [hother p hp] at hfind
      split at hfind
      · cases hfind
      · rename_i hsweeps
        rw [inForce_concat_of_ne hsweeps (Ne.symm hp)]
        exact h.draft hfind
  case none =>
    intro p hfind
    by_cases hp : p = d.path
    · subst hp
      cases hself.symm.trans hfind
    · rw [hother p hp] at hfind
      split at hfind
      · rename_i hsweeps
        exact inForce_concat_of_sweeps hsweeps ds
      · rename_i hsweeps
        rw [inForce_concat_of_ne hsweeps (Ne.symm hp)]
        exact h.none hfind
  case beneath =>
    intro p q found hfind hq hat
    have hsweeps : p ≠ d.path → ¬d.Sweeps p := by
      intro hp hsweeps
      rw [hother p hp, if_pos hsweeps] at hfind
      cases hfind
    by_cases hp : p = d.path
    · subst hp
      by_contra hnot
      rw [hremoved] at hnot
      -- Above a path that is no removal there was none before, and none has come.
      have hqd : q ≠ d.path := fun e => TargetPath.not_mem_ancestors_self _ (e ▸ hq)
      rw [removalAt?, hkept hqd fun hs => hnot hs.1, ← removalAt?, hopen hnot q hq] at hat
      cases hat
    · rw [removalAt?, hkept hp (hsweeps hp), ← removalAt?]
      rw [hkept hp (hsweeps hp)] at hfind
      by_cases hqd : q = d.path
      · subst hqd
        exact absurd ⟨hremoved.1 hat, hq⟩ (hsweeps hp)
      · -- What is swept away above is swept away here.
        have hqs : ¬d.Sweeps q := fun hs =>
          hsweeps hp ⟨hs.1, TargetPath.mem_ancestors_trans hq hs.2⟩
        rw [removalAt?, hkept hqd hqs, ← removalAt?] at hat
        exact h.beneath hfind hq hat

/-! ### A removal -/

theorem find?_withoutBeneath (drafts : Drafts) (path p : TargetPath) :
    (withoutBeneath drafts path).find? p =
      if path ∈ p.ancestors then none else drafts.find? p := by
  rw [withoutBeneath, SortedMap.find?_filter]
  split
  · rename_i h
    cases drafts.find? p <;> simp [TargetPath.isBeneath_iff.2 h]
  · rename_i h
    have hbeneath : p.isBeneath path = false :=
      Bool.eq_false_iff.2 fun e => h (TargetPath.isBeneath_iff.1 e)
    cases drafts.find? p <;> simp [hbeneath]

theorem find?_remove (b : Builder) (d : Declaration) (p : TargetPath) :
    (b.remove d).drafts.find? p =
      if p = d.path then some (((b.draft d.path).removed d.provenance).contribute d)
      else if d.path ∈ p.ancestors then none else b.drafts.find? p := by
  simp only [remove]
  split
  · rename_i h
    rw [h, SortedMap.find?_insert_self]
  · rename_i h
    rw [SortedMap.find?_insert_of_ne _ h, find?_withoutBeneath]

theorem Reflects.remove {b : Builder} {ds : List Declaration} (h : b.Reflects ds)
    {d : Declaration} (hd : d.IsRemoval) : (b.remove d).Reflects (ds ++ [d]) := by
  have hself : (b.remove d).drafts.find? d.path =
      some (((b.draft d.path).removed d.provenance).contribute d) := by
    rw [find?_remove, if_pos rfl]
  have hsource := removalAt?_eq_some_iff.2 ⟨_, hself, Draft.contribute_standing _ d⟩
  refine h.step hself (Draft.reflects_removed _ _ hd) (fun p hp => ?_) ?_ fun hnot => absurd hd hnot
  · rw [find?_remove, if_neg hp]
    exact if_congr ⟨fun habove => ⟨hd, habove⟩, And.right⟩ rfl rfl
  · rw [hsource]
    exact iff_of_true rfl hd

/-! ### A creation or an adjustment -/

theorem merge_accepted {b b' : Builder} {d : Declaration} (h : b.merge d = (b', none)) :
    ¬((b.draft d.path).merge b.strictness d.resource d.provenance).2.IsRefusal ∧
      b'.drafts = b.drafts.insert d.path
        (((b.draft d.path).merge b.strictness d.resource d.provenance).1.contribute d) := by
  unfold merge at h
  generalize (b.draft d.path).merge b.strictness d.resource d.provenance = merged at h ⊢
  obtain ⟨draft, report⟩ := merged
  cases report with
  | refused reason first => simp at h
  | merged =>
    simp only [Prod.mk.injEq, and_true] at h
    subst h
    exact ⟨Report.not_isRefusal_merged, rfl⟩
  | overrode notice first =>
    simp only [Prod.mk.injEq, and_true] at h
    subst h
    exact ⟨Report.not_isRefusal_overrode _ _, rfl⟩

theorem removal?_eq_none_iff {b : Builder} {p : TargetPath} :
    b.removal? p = none ↔ ∀ q ∈ p :: p.ancestors, b.removalAt? q = none :=
  List.findSome?_eq_none_iff

theorem draft_standing_ne_removed {b : Builder} {p : TargetPath} (h : b.removalAt? p = none)
    (source : Provenance) : (b.draft p).standing ≠ .removed source := by
  unfold Builder.draft
  cases hfind : b.drafts.find? p with
  | none => simp [Draft.fresh]
  | some draft =>
    intro hs
    rw [removalAt?_eq_some_iff.2 ⟨draft, hfind, hs⟩] at h
    cases h

theorem Reflects.merge {b b' : Builder} {ds : List Declaration} (h : b.Reflects ds)
    {d : Declaration} (hd : ¬d.IsRemoval) (hremoval : b.removal? d.path = Option.none)
    (hmerge : b.merge d = (b', Option.none)) : b'.Reflects (ds ++ [d]) := by
  obtain ⟨haccepted, hdrafts⟩ := merge_accepted hmerge
  have habove := removal?_eq_none_iff.1 hremoval
  have hopen := draft_standing_ne_removed (habove d.path List.mem_cons_self)
  have hdraft := (h.draft_at d.path).merge hd hopen haccepted
  have hself := hdrafts ▸ SortedMap.find?_insert_self b.drafts d.path _
  refine h.step hself hdraft (fun p hp => ?_) ?_ fun _ q hq => habove q (List.mem_cons_of_mem _ hq)
  · rw [hdrafts, SortedMap.find?_insert_of_ne _ hp, if_neg fun hs => hd hs.1]
  · refine iff_of_false (fun hat => ?_) hd
    -- Of the declarations that the draft reflects none is a removal.
    obtain ⟨source, hsource⟩ := Option.isSome_iff_exists.1 hat
    obtain ⟨draft, hfind, hstanding⟩ := removalAt?_eq_some_iff.1 hsource
    cases hself.symm.trans hfind
    have hreflects := hdraft.standing
    rw [hstanding] at hreflects
    obtain ⟨d', hd', hremoved⟩ := hreflects
    rcases List.mem_append.1 hd' with hd' | hd'
    · exact (h.draft_at d.path).not_removal hopen d' hd' hremoved
    · exact hd (List.mem_singleton.1 hd' ▸ hremoved)

/-! ### Runs -/

theorem Reflects.add {b b' : Builder} {ds : List Declaration} (h : b.Reflects ds)
    {d : Declaration} (hadd : b.add d = (b', Option.none)) : b'.Reflects (ds ++ [d]) := by
  unfold Builder.add at hadd
  split at hadd
  · rename_i hd
    cases hadd
    exact h.remove hd
  · rename_i hd
    split at hadd
    · cases hadd
    · rename_i hremoval
      exact h.merge hd hremoval hadd

theorem Reflects.addAll {b b' : Builder} {ds rest : List Declaration} (h : b.Reflects ds)
    (hadd : b.addAll rest = .ok b') : b'.Reflects (ds ++ rest) := by
  induction rest generalizing b ds with
  | nil =>
    cases hadd
    rwa [List.append_nil]
  | cons d rest ih =>
    rw [Builder.addAll] at hadd
    split at hadd
    · rename_i next heq
      have := ih (h.add heq) hadd
      rwa [List.append_assoc, List.singleton_append] at this
    · cases hadd

theorem reflects_of_addAll {strictness : Strictness} {b : Builder} {ds : List Declaration}
    (h : (new strictness).addAll ds = .ok b) : b.Reflects ds :=
  (reflects_new strictness).addAll h

end Builder

end Provision
