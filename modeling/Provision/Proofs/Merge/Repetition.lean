import Provision.Proofs.Merge.Locality

/-! # Declarations made twice

A draft that has taken in some declarations takes them in again, and comes out as it was but for provenances.

* `Draft.Has` — what a draft keeps of a declaration that it accepted, whatever it accepts after it.
* `Draft.exists_acceptAll?` — declarations that a draft has are accepted again.
* `mergedAt?_append_self` — made twice, the declarations at a path merge to what they merge to when made once.
-/

namespace Provision

/-! ## Permissions -/

/-- A value that was set before and that a later one does not change is still set. -/
theorem or_or_of_changes {α : Type} [DecidableEq α] {set held later : Option α} (hset : set.or held = held)
    (hlater : changes held later = false) : set.or (later.or held) = later.or held := by
  cases set <;> cases held <;> cases later <;> simp_all [changes]

namespace Permissions

theorem changed_eq_nil_iff {p later : Permissions} : p.changed later = [] ↔
    changes p.mode later.mode = false ∧ changes p.owner later.owner = false ∧
      changes p.group later.group = false := by
  rw [changed]
  cases changes p.mode later.mode <;> cases changes p.owner later.owner <;>
    cases changes p.group later.group <;> simp

theorem overlaid_eq_self_iff {p q : Permissions} : p.overlaid q = p ↔
    q.mode.or p.mode = p.mode ∧ q.owner.or p.owner = p.owner ∧ q.group.or p.group = p.group := by
  obtain ⟨mode, owner, group⟩ := p
  simp [overlaid]

theorem overlaid_self (p q : Permissions) : (p.overlaid q).overlaid q = p.overlaid q := by
  simp [overlaid, ← Option.or_assoc]

/-- What permissions have of others they still have after something that changes nothing. -/
theorem overlaid_of_changed {p q later : Permissions} (hq : p.overlaid q = p) (hlater : p.changed later = []) :
    (p.overlaid later).overlaid q = p.overlaid later := by
  obtain ⟨hmode, howner, hgroup⟩ := overlaid_eq_self_iff.1 hq
  obtain ⟨hmode', howner', hgroup'⟩ := changed_eq_nil_iff.1 hlater
  exact overlaid_eq_self_iff.2 ⟨or_or_of_changes hmode hmode', or_or_of_changes howner howner',
    or_or_of_changes hgroup hgroup'⟩

theorem changed_of_overlaid {p q : Permissions} (hq : p.overlaid q = p) : p.changed q = [] := by
  have hfield : ∀ {α : Type} [DecidableEq α] {set held : Option α}, set.or held = held →
      changes held set = false := by
    intro α _ set held h
    cases set <;> cases held <;> simp_all [changes]
  obtain ⟨hmode, howner, hgroup⟩ := overlaid_eq_self_iff.1 hq
  exact changed_eq_nil_iff.2 ⟨hfield hmode, hfield howner, hfield hgroup⟩

end Permissions

/-! ## What a draft keeps -/

namespace Draft

variable {strictness : Strictness} {draft : Draft}

/-- Whether a draft has what a resource says: an entry of its kind, and values for what it sets; where overriding is
    forbidden, its very values. -/
def Holds (strictness : Strictness) (draft : Draft) : Resource → Prop
  | .entry spec => ∃ existing source, draft.standing = .entry existing source ∧ existing.kind = spec.kind ∧
      (strictness = .strict → existing = spec)
  | .permissions permissions => draft.adjustment.isSome ∧
      (strictness = .strict → draft.overlay.overlaid permissions = draft.overlay)
  | .xattr xattr => ∃ value, (draft.xattrs.find? xattr.name).map (·.1) = some value ∧
      (strictness = .strict → value = xattr.value)
  | .absent => False

theorem adjust_accepted {permissions : Permissions} {source : Provenance}
    (haccepted : ¬(draft.adjust strictness permissions source).2.IsRefusal) :
    (∃ adjustment, (draft.adjust strictness permissions source).1 =
        { draft with adjustment := some adjustment } ∧
      adjustment.permissions = draft.overlay.overlaid permissions) ∧
    (strictness = .strict → draft.overlay.changed permissions = []) := by
  rw [adjust] at haccepted ⊢
  cases hadjustment : draft.adjustment with
  | none =>
    have hoverlay := overlay_of_none hadjustment
    refine ⟨⟨_, rfl, ?_⟩, fun _ => ?_⟩
    · simp [hoverlay, Permissions.overlaid, Permissions.none]
    · rw [hoverlay]
      rfl
  | some adjustment =>
    have hoverlay := overlay_of_some hadjustment
    rw [hadjustment] at haccepted
    simp only [hoverlay] at haccepted ⊢
    split
    · rename_i hchanged
      exact ⟨⟨_, rfl, rfl⟩, fun _ => hchanged⟩
    · rename_i hchanged
      rw [if_neg hchanged] at haccepted
      split
      · rename_i hstrict
        rw [if_pos hstrict] at haccepted
        exact absurd ⟨_, _, rfl⟩ haccepted
      · rename_i hstrict
        exact ⟨⟨_, rfl, rfl⟩, fun h => absurd h hstrict⟩

theorem holds_merge {resource : Resource} {source : Provenance} (hresource : resource ≠ .absent)
    (haccepted : ¬(draft.merge strictness resource source).2.IsRefusal) :
    (draft.merge strictness resource source).1.Holds strictness resource := by
  cases resource with
  | absent => exact absurd rfl hresource
  | entry spec =>
    obtain ⟨⟨declaredBy, heq⟩, -⟩ := create_accepted haccepted
    rw [merge, heq]
    exact ⟨spec, declaredBy, rfl, rfl, fun _ => rfl⟩
  | permissions permissions =>
    obtain ⟨⟨adjustment, heq, hpermissions⟩, -⟩ := adjust_accepted haccepted
    rw [merge, heq]
    refine ⟨rfl, fun _ => ?_⟩
    rw [overlay_of_some rfl, hpermissions, Permissions.overlaid_self]
  | xattr xattr =>
    obtain ⟨⟨xattrs, heq, hfind⟩, -⟩ := attach_accepted haccepted
    rw [merge, heq]
    exact ⟨xattr.value, by rw [hfind, if_pos rfl], fun _ => rfl⟩

/-- What is there stays there, whatever else is accepted. -/
theorem Holds.merge {held resource : Resource} {source : Provenance} (h : draft.Holds strictness held)
    (hresource : resource ≠ .absent) (haccepted : ¬(draft.merge strictness resource source).2.IsRefusal) :
    (draft.merge strictness resource source).1.Holds strictness held := by
  -- A resource changes only what resources of its own sort look at, and there it may not take anything away.
  cases resource with
  | absent => exact absurd rfl hresource
  | entry spec =>
    obtain ⟨⟨declaredBy, heq⟩, hsame⟩ := create_accepted haccepted
    rw [Draft.merge, heq]
    cases held with
    | entry earlier =>
      obtain ⟨existing, first, hs, hkind, hstrict⟩ := h
      obtain ⟨hkind', hstrict'⟩ := hsame existing first hs
      exact ⟨spec, declaredBy, rfl, hkind'.symm.trans hkind, fun hs => (hstrict' hs).symm.trans (hstrict hs)⟩
    | permissions permissions => exact h
    | xattr xattr => exact h
    | absent => exact h
  | permissions permissions =>
    obtain ⟨⟨adjustment, heq, hpermissions⟩, hsame⟩ := adjust_accepted haccepted
    rw [Draft.merge, heq]
    cases held with
    | permissions earlier =>
      refine ⟨rfl, fun hstrict => ?_⟩
      rw [overlay_of_some rfl, hpermissions]
      exact Permissions.overlaid_of_changed (h.2 hstrict) (hsame hstrict)
    | entry spec => exact h
    | xattr xattr => exact h
    | absent => exact h
  | xattr xattr =>
    obtain ⟨⟨xattrs, heq, hfind⟩, hsame⟩ := attach_accepted haccepted
    rw [Draft.merge, heq]
    cases held with
    | xattr earlier =>
      obtain ⟨value, hvalue, hstrict⟩ := h
      by_cases hname : xattr.name = earlier.name
      · refine ⟨xattr.value, by rw [hfind, if_pos hname], fun hs => ?_⟩
        obtain ⟨⟨value, first⟩, hheld, rfl⟩ := Option.map_eq_some_iff.1 hvalue
        rw [← hstrict hs, hsame value first (hname ▸ hheld) hs]
      · exact ⟨value, by rw [hfind, if_neg hname, hvalue], hstrict⟩
    | entry spec => exact h
    | permissions permissions => exact h
    | absent => exact h

/-- What is there is accepted again. -/
theorem Holds.accepted {resource : Resource} (h : draft.Holds strictness resource) (source : Provenance) :
    ¬(draft.merge strictness resource source).2.IsRefusal := by
  cases resource with
  | absent => exact h.elim
  | entry spec =>
    obtain ⟨existing, first, hs, hkind, hstrict⟩ := h
    simp only [Draft.merge, create, hs]
    rw [if_neg (not_not.2 hkind)]
    split
    · exact Report.not_isRefusal_merged
    · rename_i hne
      rw [if_neg fun h => hne (hstrict h)]
      exact Report.not_isRefusal_overrode _ _
  | permissions permissions =>
    obtain ⟨hsome, hstrict⟩ := h
    obtain ⟨adjustment, hadjustment⟩ := Option.isSome_iff_exists.1 hsome
    have hoverlay := overlay_of_some hadjustment
    simp only [Draft.merge, adjust, hadjustment]
    split
    · exact Report.not_isRefusal_merged
    · rename_i hchanged
      rw [if_neg fun h => hchanged (hoverlay ▸ Permissions.changed_of_overlaid (hstrict h))]
      exact Report.not_isRefusal_overrode _ _
  | xattr xattr =>
    obtain ⟨value, hvalue, hstrict⟩ := h
    obtain ⟨⟨value, first⟩, hfind, rfl⟩ := Option.map_eq_some_iff.1 hvalue
    simp only [Draft.merge, attach, hfind]
    split
    · exact Report.not_isRefusal_merged
    · rename_i hne
      rw [if_neg fun h => hne (hstrict h)]
      exact Report.not_isRefusal_overrode _ _

theorem merge_requires {resource : Resource} {source : Provenance} (hresource : resource ≠ .absent)
    (haccepted : ¬(draft.merge strictness resource source).2.IsRefusal) :
    (draft.merge strictness resource source).1.requires = draft.requires := by
  cases resource with
  | absent => exact absurd rfl hresource
  | entry spec =>
    obtain ⟨⟨declaredBy, heq⟩, -⟩ := create_accepted haccepted
    rw [merge, heq]
  | permissions permissions =>
    obtain ⟨⟨adjustment, heq, -⟩, -⟩ := adjust_accepted haccepted
    rw [merge, heq]
  | xattr xattr =>
    obtain ⟨⟨xattrs, heq, -⟩, -⟩ := attach_accepted haccepted
    rw [merge, heq]

/-- Whether there are permission-sets does not change where one that is there is declared again. -/
theorem Holds.adjustment {resource : Resource} {source : Provenance} (h : draft.Holds strictness resource)
    (haccepted : ¬(draft.merge strictness resource source).2.IsRefusal) :
    (draft.merge strictness resource source).1.adjustment.isSome = draft.adjustment.isSome := by
  cases resource with
  | absent => exact h.elim
  | entry spec =>
    obtain ⟨⟨declaredBy, heq⟩, -⟩ := create_accepted haccepted
    rw [Draft.merge, heq]
  | permissions permissions =>
    obtain ⟨⟨adjustment, heq, -⟩, -⟩ := adjust_accepted haccepted
    rw [Draft.merge, heq, h.1]
    rfl
  | xattr xattr =>
    obtain ⟨⟨xattrs, heq, -⟩, -⟩ := attach_accepted haccepted
    rw [Draft.merge, heq]

/-! ## Declarations -/

/-- Whether a draft has what a declaration says, its requirements included. -/
structure Has (strictness : Strictness) (draft : Draft) (d : Declaration) : Prop where
  holds : draft.Holds strictness d.resource
  requires : ∀ q ∈ d.requires, q ∈ draft.requires.map (·.1)

theorem holds_contribute {resource : Resource} {d : Declaration} :
    (draft.contribute d).Holds strictness resource ↔ draft.Holds strictness resource := by
  obtain ⟨requires, heq, -⟩ := draft.contribute_eq d
  rw [heq]
  cases resource <;> rfl

theorem contribute_of_requires {d : Declaration} (h : ∀ q ∈ d.requires, q ∈ draft.requires.map (·.1)) :
    (draft.contribute d).requires = draft.requires := by
  have hrequire : ∀ q ∈ d.requires, draft.require q d.provenance = draft := by
    -- A path that is required already is passed over.
    intro q hq
    obtain ⟨r, hr, rfl⟩ := List.mem_map.1 (h q hq)
    rw [require, if_pos (List.any_eq_true.2 ⟨r, hr, by simp⟩)]
  have hfold : ∀ required : List TargetPath, (∀ q ∈ required, draft.require q d.provenance = draft) →
      required.foldl (fun draft path => draft.require path d.provenance) draft = draft := by
    intro required hall
    induction required with
    | nil => rfl
    | cons path required ih =>
      rw [List.foldl_cons, hall path List.mem_cons_self]
      exact ih fun q hq => hall q (List.mem_cons_of_mem _ hq)
  rw [contribute, hfold d.requires hrequire]

section Accepted

variable {accepted : Draft} {d : Declaration}

theorem has_of_accept? (hd : ¬d.IsRemoval) (h : draft.accept? strictness d = some accepted) :
    accepted.Has strictness d := by
  obtain ⟨haccepted, rfl⟩ := accept?_eq_some_iff.1 h
  obtain ⟨requires, heq, hmem⟩ := (draft.merge strictness d.resource d.provenance).1.contribute_eq d
  refine ⟨holds_contribute.2 (holds_merge hd haccepted), fun q hq => ?_⟩
  rw [heq]
  exact (hmem q).2 (.inr hq)

theorem Has.accept? {held : Declaration} (hheld : draft.Has strictness held) (hd : ¬d.IsRemoval)
    (h : draft.accept? strictness d = some accepted) : accepted.Has strictness held := by
  obtain ⟨haccepted, rfl⟩ := accept?_eq_some_iff.1 h
  obtain ⟨requires, heq, hmem⟩ := (draft.merge strictness d.resource d.provenance).1.contribute_eq d
  refine ⟨holds_contribute.2 (hheld.holds.merge hd haccepted), fun q hq => ?_⟩
  rw [heq]
  refine (hmem q).2 (.inl ?_)
  rw [merge_requires hd haccepted]
  exact hheld.requires q hq

theorem Has.acceptAll? {held : Declaration} {ds : List Declaration} (hheld : draft.Has strictness held)
    (hds : ∀ d ∈ ds, ¬d.IsRemoval) (h : draft.acceptAll? strictness ds = some accepted) :
    accepted.Has strictness held := by
  induction ds generalizing draft with
  | nil =>
    cases h
    exact hheld
  | cons d rest ih =>
    obtain ⟨next, hnext, hrest⟩ := Option.bind_eq_some_iff.1 h
    exact ih (hheld.accept? (hds d List.mem_cons_self) hnext)
      (fun d hd => hds d (List.mem_cons_of_mem _ hd)) hrest

theorem has_of_acceptAll? {ds : List Declaration} (hds : ∀ d ∈ ds, ¬d.IsRemoval)
    (h : draft.acceptAll? strictness ds = some accepted) : ∀ d ∈ ds, accepted.Has strictness d := by
  induction ds generalizing draft with
  | nil => simp
  | cons d rest ih =>
    have hrest : ∀ d ∈ rest, ¬d.IsRemoval := fun d hd => hds d (List.mem_cons_of_mem _ hd)
    obtain ⟨next, hnext, haccepted⟩ := Option.bind_eq_some_iff.1 h
    intro held hheld
    rcases List.mem_cons.1 hheld with rfl | hheld
    · -- Accepted first, and kept through the rest.
      exact (has_of_accept? (hds held List.mem_cons_self) hnext).acceptAll? hrest haccepted
    · exact ih hrest haccepted held hheld

theorem Has.exists_accept? (h : draft.Has strictness d) (hd : ¬d.IsRemoval) :
    ∃ accepted, draft.accept? strictness d = some accepted ∧ accepted.requires = draft.requires ∧
      accepted.adjustment.isSome = draft.adjustment.isSome := by
  have haccepted := h.holds.accepted d.provenance
  have hrequires := merge_requires hd haccepted
  refine ⟨_, accept?_eq_some_iff.2 ⟨haccepted, rfl⟩, ?_, ?_⟩
  · rw [contribute_of_requires (by rw [hrequires]; exact h.requires), hrequires]
  · obtain ⟨requires, heq, -⟩ := (draft.merge strictness d.resource d.provenance).1.contribute_eq d
    rw [heq]
    exact h.holds.adjustment haccepted

/-- Declarations that a draft has are accepted again, and add no requirement and no permission-set where there were
    none. -/
theorem exists_acceptAll? {ds : List Declaration} (hds : ∀ d ∈ ds, ¬d.IsRemoval)
    (h : ∀ d ∈ ds, draft.Has strictness d) :
    ∃ accepted, draft.acceptAll? strictness ds = some accepted ∧ accepted.requires = draft.requires ∧
      accepted.adjustment.isSome = draft.adjustment.isSome := by
  induction ds generalizing draft with
  | nil => exact ⟨draft, rfl, rfl, rfl⟩
  | cons d rest ih =>
    have hrest : ∀ d ∈ rest, ¬d.IsRemoval := fun d hd => hds d (List.mem_cons_of_mem _ hd)
    have hd := hds d List.mem_cons_self
    obtain ⟨next, hnext, hrequires, hadjustment⟩ := (h d List.mem_cons_self).exists_accept? hd
    -- Accepting one of them again leaves the others as acceptable as they were.
    obtain ⟨accepted, haccepted, hrequires', hadjustment'⟩ := ih hrest
      fun held hheld => (h held (List.mem_cons_of_mem _ hheld)).accept? hd hnext
    refine ⟨accepted, ?_, hrequires'.trans hrequires, hadjustment'.trans hadjustment⟩
    rw [acceptAll?_cons, hnext]
    exact haccepted

end Accepted

theorem acceptAll?_frame {accepted : Draft} {ds : List Declaration}
    (h : draft.acceptAll? strictness ds = some accepted) :
    accepted.provenance = draft.provenance ++ ds.map (·.provenance) ∧ accepted.order = draft.order := by
  induction ds generalizing draft with
  | nil =>
    cases h
    simp
  | cons d rest ih =>
    obtain ⟨next, hnext, hrest⟩ := Option.bind_eq_some_iff.1 h
    obtain ⟨-, rfl⟩ := accept?_eq_some_iff.1 hnext
    obtain ⟨hprovenance, horder⟩ := ih hrest
    rw [contribute_provenance, (draft.merge_frame strictness d.resource d.provenance).1] at hprovenance
    rw [contribute_order, merge_order] at horder
    exact ⟨by rw [hprovenance, List.map_cons, List.append_assoc]; rfl, horder⟩

theorem Reflects.acceptAll? {accepted : Draft} {ds more : List Declaration} (h : draft.Reflects ds)
    (hds : ∀ d ∈ ds ++ more, ¬d.IsRemoval) (haccepted : draft.acceptAll? strictness more = some accepted) :
    accepted.Reflects (ds ++ more) := by
  induction more generalizing draft ds with
  | nil =>
    cases haccepted
    rwa [List.append_nil]
  | cons d rest ih =>
    obtain ⟨next, hnext, hrest⟩ := Option.bind_eq_some_iff.1 haccepted
    obtain ⟨hmerge, rfl⟩ := accept?_eq_some_iff.1 hnext
    have hopen : ∀ first, draft.standing ≠ .removed first := by
      intro first hs
      have hstanding := h.standing
      rw [hs] at hstanding
      obtain ⟨d', hd', hremoval⟩ := hstanding
      exact hds d' (List.mem_append_left _ hd') hremoval
    have := ih (h.merge (hds d (by simp)) hopen hmerge) (by simpa using hds) hrest
    rwa [List.append_assoc, List.singleton_append] at this

end Draft

/-! ## Twice -/

/-- No provenance is told from another, and of several only that there are some. -/
def Relabelling.unsourced : Relabelling where
  source _ := ⟨"", 0⟩
  history l := (l.head?.map fun _ => ⟨"", 0⟩).toList
  position := id
  head l := by cases l <;> rfl

theorem lastOf_append_self {α : Type} (value? : Declaration → Option α) (ds : List Declaration) :
    lastOf value? (ds ++ ds) = lastOf value? ds := by
  rw [lastOf, lastOf, List.filterMap_append, List.getLast?_append, Option.or_self]

theorem lastSet_append_self (ds : List Declaration) : lastSet (ds ++ ds) = lastSet ds := by
  simp only [lastSet, lastOf_append_self]

namespace Draft

variable {draft draft' : Draft} {ds : List Declaration}

/-- Where nothing is removed, an entry stands when one was declared: the last one. -/
theorem Reflects.standing_relabel (h : draft.Reflects ds) (hds : ∀ d ∈ ds, ¬d.IsRemoval) :
    draft.standing.relabel .unsourced = match lastOf Declaration.entry? ds with
      | none => .pending
      | some spec => .entry spec ⟨"", 0⟩ := by
  have hstanding := h.standing
  cases hs : draft.standing with
  | implicit =>
    rw [hs] at hstanding
    exact hstanding.elim
  | removed source =>
    rw [hs] at hstanding
    obtain ⟨d, hd, hremoval⟩ := hstanding
    exact absurd hremoval (hds d hd)
  | pending =>
    rw [hs] at hstanding
    rw [hstanding.1]
    rfl
  | entry spec source =>
    rw [hs] at hstanding
    rw [hstanding.1]
    rfl

theorem adjustment_relabel {r : Relabelling} (hsource : ∀ a b, r.source a = r.source b)
    (hsome : draft'.adjustment.isSome = draft.adjustment.isSome) (hoverlay : draft'.overlay = draft.overlay) :
    (draft'.relabel r).adjustment = (draft.relabel r).adjustment := by
  rw [overlay, overlay] at hoverlay
  rw [relabel, relabel]
  cases h : draft.adjustment with
  | none =>
    cases h' : draft'.adjustment with
    | none => rfl
    | some adjustment' =>
      rw [h, h'] at hsome
      cases hsome
  | some adjustment =>
    cases h' : draft'.adjustment with
    | none =>
      rw [h, h'] at hsome
      cases hsome
    | some adjustment' =>
      rw [h, h'] at hoverlay
      have hpermissions : adjustment'.permissions = adjustment.permissions := hoverlay
      simp only [Option.map_some, hpermissions, hsource adjustment'.last adjustment.last]

/-- Two drafts that reflect the same declarations, made once and twice, differ by provenances. -/
theorem Reflects.relabel_eq (h : draft.Reflects ds) (h' : draft'.Reflects (ds ++ ds))
    (hds : ∀ d ∈ ds, ¬d.IsRemoval) (hrequires : draft'.requires = draft.requires)
    (hadjustment : draft'.adjustment.isSome = draft.adjustment.isSome) (horder : draft'.order = draft.order)
    (hprovenance : draft'.provenance.head? = draft.provenance.head?) :
    draft'.relabel .unsourced = draft.relabel .unsourced := by
  have hdouble : ∀ d ∈ ds ++ ds, ¬d.IsRemoval := by simpa using hds
  have hoverlay : draft'.overlay = draft.overlay := by
    rw [h.overlay, h'.overlay, fromRemoval_eq_self hds, fromRemoval_eq_self hdouble, lastSet_append_self]
  have hxattrs : ∀ name, (draft'.xattrs.find? name).map (·.1) = (draft.xattrs.find? name).map (·.1) := by
    intro name
    rw [h.xattrs, h'.xattrs, fromRemoval_eq_self hds, fromRemoval_eq_self hdouble, lastOf_append_self]
  have hadjusted := adjustment_relabel (r := .unsourced) (fun _ _ => rfl) hadjustment hoverlay
  simp only [Draft.relabel, Draft.mk.injEq] at hadjusted ⊢
  refine ⟨?_, hadjusted, ?_, by rw [hrequires], ?_, by rw [horder]⟩
  · rw [h.standing_relabel hds, h'.standing_relabel hdouble, lastOf_append_self]
  · refine SortedMap.ext fun name => ?_
    rw [SortedMap.find?_mapValues _ _ _ fun _ _ _ => rfl, SortedMap.find?_mapValues _ _ _ fun _ _ _ => rfl]
    have := congrArg (Option.map fun value => (value, (⟨"", 0⟩ : Provenance))) (hxattrs name)
    rwa [Option.map_map, Option.map_map] at this
  · simp only [Relabelling.unsourced, hprovenance]

end Draft

theorem mergedAt?_append_self (strictness : Strictness) {ds : List Declaration} (hds : ∀ d ∈ ds, ¬d.IsRemoval)
    {p : TargetPath} (hne : ds.filter (·.path = p) ≠ []) :
    (mergedAt? strictness p (ds ++ ds)).map (·.relabel .unsourced) =
      (mergedAt? strictness p ds).map (·.relabel .unsourced) := by
  have hat : ∀ d ∈ ds.filter (·.path = p), ¬d.IsRemoval := fun d hd => hds d (List.mem_of_mem_filter hd)
  rw [mergedAt?, mergedAt?, List.findIdx_append, if_pos (findIdx_lt_iff.2 hne), List.filter_append,
    Draft.acceptAll?_append]
  cases hfirst : (Draft.fresh (ds.findIdx (·.path = p))).acceptAll? strictness (ds.filter (·.path = p)) with
  | none => rfl
  | some draft =>
    -- The first draft has all of the declarations, so they are accepted again; both drafts are told by what they
    -- reflect, and the last values of the list are those of the list made twice.
    obtain ⟨draft', hsecond, hrequires, hadjustment⟩ :=
      Draft.exists_acceptAll? hat (Draft.has_of_acceptAll? hat hfirst)
    have h : draft.Reflects (ds.filter (·.path = p)) :=
      (Draft.reflects_fresh _).acceptAll? (by simpa using hat) hfirst
    have h' := h.acceptAll? (by simpa using hat) hsecond
    obtain ⟨hprovenance, -⟩ := Draft.acceptAll?_frame hfirst
    obtain ⟨hprovenance', horder⟩ := Draft.acceptAll?_frame hsecond
    rw [Option.bind_some, hsecond, Option.map_some, Option.map_some]
    refine congrArg some (h.relabel_eq h' hat hrequires hadjustment horder ?_)
    rw [hprovenance', hprovenance]
    cases ds.filter (·.path = p) <;> rfl

end Provision
