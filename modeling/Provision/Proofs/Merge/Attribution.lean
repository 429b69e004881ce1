import Provision.Proofs.Merge.Verdict

/-! # Whom an override names

An override names two declarations, the later one and one before it. For an entry and for an attribute the one before is
one that set the value which is replaced. For a permission-set it is the last one before, whatever that one set: only
one declaration is kept for all fields.

* `Builder.taken` — the declarations that are accepted on the way; `lastSetter` — the last permission-set.
* `Draft.Credits` — the invariant at one path; `Draft.Credits.merge` — one more declaration, accepted or not.
* `Builder.Credits` — at all paths that nothing has removed.
* `Draft.Replaces` — what an override replaces in a draft; `Draft.names_merge` — that is what a merge reports.
* `Builder.addEach_isAttributed` — the statement; `Builder.remounted_misattributed` — a permission-set that is named
  without having set what is replaced.
-/

namespace Provision

/-! ## What was declared -/

/-- The declarations at a path. -/
def declaredAt (p : TargetPath) (ds : List Declaration) : List Declaration := ds.filter (·.path = p)

theorem declaredAt_append (p : TargetPath) (ds more : List Declaration) :
    declaredAt p (ds ++ more) = declaredAt p ds ++ declaredAt p more :=
  List.filter_append ds more

theorem declaredAt_singleton (d : Declaration) : declaredAt d.path [d] = [d] := by simp [declaredAt]

theorem declaredAt_of_ne {p : TargetPath} {d : Declaration} (hp : p ≠ d.path) : declaredAt p [d] = [] := by
  simp [declaredAt, hp.symm]

/-- The last permission-set among declarations. -/
def lastSetter (ds : List Declaration) : Option Provenance :=
  lastOf (fun d => d.permissions?.map fun _ => d.provenance) ds

/-- A value that is held with its source is the last one of some declarations, and one of them has set it. -/
structure IsHeld {α : Type} (value? : Declaration → Option α) (ds : List Declaration) (held? : Option (α × Provenance)) :
    Prop where
  value : held?.map (·.1) = lastOf value? ds
  source : ∀ a source, held? = some (a, source) → ∃ d ∈ ds, value? d = some a ∧ d.provenance = source

namespace IsHeld

variable {α : Type} {value? : Declaration → Option α} {ds : List Declaration} {held? : Option (α × Provenance)}
  {d : Declaration}

theorem nil : IsHeld value? [] none := ⟨rfl, by simp⟩

/-- Declarations that set nothing leave a value as it is held. -/
theorem append (h : IsHeld value? ds held?) {more : List Declaration} (hmore : ∀ d ∈ more, value? d = none) :
    IsHeld value? (ds ++ more) held? where
  value := by
    rw [h.value, lastOf, lastOf, List.filterMap_append, List.filterMap_eq_nil_iff.2 hmore, List.append_nil]
  source a source hheld := by
    obtain ⟨d', hd', hset⟩ := h.source a source hheld
    exact ⟨d', List.mem_append_left _ hd', hset⟩

/-- A value that is repeated keeps its source. -/
theorem concat_of_same (h : IsHeld value? ds held?) {a : α} (hd : value? d = some a)
    (hsame : held?.map (·.1) = some a) : IsHeld value? (ds ++ [d]) held? where
  value := by rw [lastOf_concat, hd, Option.some_or, hsame]
  source a source hheld := by
    obtain ⟨d', hd', hset⟩ := h.source a source hheld
    exact ⟨d', List.mem_append_left _ hd', hset⟩

theorem concat_self (ds : List Declaration) {a : α} (hd : value? d = some a) :
    IsHeld value? (ds ++ [d]) (some (a, d.provenance)) where
  value := by rw [lastOf_concat, hd, Option.some_or]; rfl
  source b source hheld := by
    cases hheld
    exact ⟨d, by simp, hd, rfl⟩

end IsHeld

/-! ## One draft -/

/-- The entry that stands, with its source. -/
def Standing.held? : Standing → Option (EntrySpec × Provenance)
  | .entry spec source => some (spec, source)
  | _ => none

namespace Draft

/-- A draft gives credit where it is due: its entry and its attributes have their sources among the declarations that
    were accepted at its path, and its permissions are those of all permission-sets, refused ones included, with the
    last of them for their source. -/
structure Credits (draft : Draft) (accepted declared : List Declaration) : Prop where
  entry : IsHeld Declaration.entry? accepted draft.standing.held?
  xattr : ∀ name, IsHeld (Declaration.attribute? name) accepted (draft.xattrs.find? name)
  overlay : draft.overlay = lastSet declared
  last : draft.adjustment.map (·.last) = lastSetter declared

variable {strictness : Strictness} {draft : Draft} {d : Declaration} {accepted declared more : List Declaration}

theorem credits_fresh (order : Nat) : (fresh order).Credits [] [] where
  entry := .nil
  xattr _ := .nil
  overlay := rfl
  last := rfl

/-- What is held is untouched by the requirements and the provenance of a declaration. -/
theorem Credits.contribute (h : draft.Credits accepted declared) (d : Declaration) :
    (draft.contribute d).Credits accepted declared := by
  obtain ⟨requires, heq, -⟩ := draft.contribute_eq d
  rw [heq]
  exact ⟨h.entry, h.xattr, h.overlay, h.last⟩

theorem adjust_fst (draft : Draft) (strictness : Strictness) (permissions : Permissions) (source : Provenance) :
    (draft.adjust strictness permissions source).1 =
      { draft with adjustment := some ⟨draft.overlay.overlaid permissions, source⟩ } := by
  rw [adjust]
  cases hadjustment : draft.adjustment with
  | none =>
    rw [overlay_of_none hadjustment]
    simp [Permissions.overlaid, Permissions.none]
  | some adjustment =>
    rw [overlay_of_some hadjustment]
    simp only
    split
    · rfl
    · split <;> rfl

/-- A declaration, unless it was refused. -/
def credited (report : Report) (d : Declaration) : List Declaration := if report.reason? = none then [d] else []

theorem forall_mem_credited {report : Report} {P : Declaration → Prop} (h : P d) : ∀ d' ∈ credited report d, P d' := by
  intro d' hd'
  rw [credited] at hd'
  split at hd'
  · rwa [List.mem_singleton.1 hd']
  · cases hd'

theorem lastSetter_concat (ds : List Declaration) (d : Declaration) :
    lastSetter (ds ++ [d]) = (d.permissions?.map fun _ => d.provenance).or (lastSetter ds) :=
  lastOf_concat _ ds d

theorem isHeld_create (strictness : Strictness) (h : draft.Credits accepted declared)
    (hopen : ∀ first, draft.standing ≠ .removed first) {spec : EntrySpec}
    (hd : d.resource = .entry spec) : IsHeld Declaration.entry? (accepted ++ credited (draft.create strictness spec d.provenance).2 d)
      (draft.create strictness spec d.provenance).1.standing.held? := by
  have hentry : d.entry? = some spec := by rw [Declaration.entry?, hd]
  have hheld := h.entry
  rw [create]
  cases hs : draft.standing with
  | pending => exact .concat_self accepted hentry
  | implicit => exact .concat_self accepted hentry
  | removed first => exact absurd hs (hopen first)
  | entry existing first =>
    rw [hs] at hheld
    simp only
    split
    · exact (hs ▸ hheld).append (by simp [credited, Report.reason?])
    · split
      · rename_i heq
        rw [hs]
        exact hheld.concat_of_same hentry (congrArg some heq)
      · split
        · exact (hs ▸ hheld).append (by simp [credited, Report.reason?])
        · exact .concat_self accepted hentry

theorem isHeld_attach (strictness : Strictness) (h : draft.Credits accepted declared) {xattr : Attribute}
    (hd : d.resource = .xattr xattr) (name : String) :
    IsHeld (Declaration.attribute? name) (accepted ++ credited (draft.attach strictness xattr d.provenance).2 d)
      ((draft.attach strictness xattr d.provenance).1.xattrs.find? name) := by
  have hheld := h.xattr name
  by_cases hname : xattr.name = name
  · subst hname
    have hvalue : d.attribute? xattr.name = some xattr.value := by rw [Declaration.attribute?, hd]; exact if_pos rfl
    rw [attach]
    cases hfind : draft.xattrs.find? xattr.name with
    | none =>
      simp only [SortedMap.find?_insert_self]
      exact .concat_self accepted hvalue
    | some held =>
      rw [hfind] at hheld
      simp only
      split
      · rename_i hsame
        rw [hfind]
        exact hheld.concat_of_same hvalue (congrArg some hsame)
      · split
        · exact (hfind ▸ hheld).append (by simp [credited, Report.reason?])
        · simp only [SortedMap.find?_insert_self]
          exact .concat_self accepted hvalue
  · have hvalue : d.attribute? name = none := by rw [Declaration.attribute?, hd]; exact if_neg hname
    have hsame : (draft.attach strictness xattr d.provenance).1.xattrs.find? name = draft.xattrs.find? name := by
      rw [attach]
      split
      · exact SortedMap.find?_insert_of_ne _ (Ne.symm hname)
      · split
        · rfl
        · split
          · rfl
          · exact SortedMap.find?_insert_of_ne _ (Ne.symm hname)
    rw [hsame]
    exact hheld.append (forall_mem_credited hvalue)

/-- What an entry leaves alone. -/
theorem create_frame (draft : Draft) (strictness : Strictness) (spec : EntrySpec) (source : Provenance) :
    ∃ standing, (draft.create strictness spec source).1 = { draft with standing } := by
  rw [create]
  split
  · exact ⟨_, rfl⟩
  · exact ⟨_, rfl⟩
  · exact ⟨_, rfl⟩
  · split
    · exact ⟨_, rfl⟩
    · split
      · exact ⟨_, rfl⟩
      · split <;> exact ⟨_, rfl⟩

theorem attach_frame (draft : Draft) (strictness : Strictness) (xattr : Attribute) (source : Provenance) :
    ∃ xattrs, (draft.attach strictness xattr source).1 = { draft with xattrs } := by
  rw [attach]
  split
  · exact ⟨_, rfl⟩
  · split
    · exact ⟨_, rfl⟩
    · split <;> exact ⟨_, rfl⟩

/-- One more declaration at the path counts among the accepted ones unless it is refused. -/
theorem Credits.merge (strictness : Strictness) (h : draft.Credits accepted declared) (hd : ¬d.IsRemoval)
    (hopen : ∀ first, draft.standing ≠ .removed first) :
    (draft.merge strictness d.resource d.provenance).1.Credits
      (accepted ++ credited (draft.merge strictness d.resource d.provenance).2 d) (declared ++ [d]) := by
  cases hresource : d.resource with
  | absent => exact absurd hresource hd
  | entry spec =>
    have hattribute : ∀ name, d.attribute? name = none := fun name => by rw [Declaration.attribute?, hresource]
    have hpermissions : d.permissions? = none := by rw [Declaration.permissions?, hresource]
    obtain ⟨standing, heq⟩ := draft.create_frame strictness spec d.provenance
    refine ⟨isHeld_create strictness h hopen hresource, fun name => ?_, ?_, ?_⟩
    · rw [Draft.merge, heq]
      exact (h.xattr name).append (forall_mem_credited (hattribute name))
    · rw [Draft.merge, heq, lastSet_concat_of_none hpermissions]
      exact h.overlay
    · rw [Draft.merge, heq, lastSetter_concat, hpermissions]
      exact h.last
  | permissions permissions =>
    have hentry : d.entry? = none := by rw [Declaration.entry?, hresource]
    have hattribute : ∀ name, d.attribute? name = none := fun name => by rw [Declaration.attribute?, hresource]
    have hpermissions : d.permissions? = some permissions := by rw [Declaration.permissions?, hresource]
    have heq := draft.adjust_fst strictness permissions d.provenance
    refine ⟨?_, fun name => ?_, ?_, ?_⟩
    · rw [Draft.merge, heq]
      exact h.entry.append (forall_mem_credited hentry)
    · rw [Draft.merge, heq]
      exact (h.xattr name).append (forall_mem_credited (hattribute name))
    · rw [Draft.merge, heq, lastSet_concat_of_some hpermissions, ← h.overlay]
      rfl
    · rw [Draft.merge, heq, lastSetter_concat, hpermissions]
      rfl
  | xattr xattr =>
    have hentry : d.entry? = none := by rw [Declaration.entry?, hresource]
    have hpermissions : d.permissions? = none := by rw [Declaration.permissions?, hresource]
    obtain ⟨xattrs, heq⟩ := draft.attach_frame strictness xattr d.provenance
    refine ⟨?_, isHeld_attach strictness h hresource, ?_, ?_⟩
    · rw [Draft.merge, heq]
      exact h.entry.append (forall_mem_credited hentry)
    · rw [Draft.merge, heq, lastSet_concat_of_none hpermissions]
      exact h.overlay
    · rw [Draft.merge, heq, lastSetter_concat, hpermissions]
      exact h.last

/-! ## Overrides at one path -/

/-- What an override replaces in a draft, and whom it names for it. -/
inductive Replaces (draft : Draft) : Resource → Notice → Provenance → Prop
  | entry {existing spec : EntrySpec} {first : Provenance} (stands : draft.standing = .entry existing first)
      (kind : existing.kind = spec.kind) (differs : existing ≠ spec) :
      draft.Replaces (.entry spec) (.entryOverridden spec.kind) first
  | fields {earlier permissions : Permissions} {last : Provenance} (adjusted : draft.adjustment = some ⟨earlier, last⟩)
      (changed : earlier.changed permissions ≠ []) :
      draft.Replaces (.permissions permissions) (.fieldsOverridden (earlier.changed permissions)) last
  | xattr {value : Octets} {xattr : Attribute} {first : Provenance}
      (attached : draft.xattrs.find? xattr.name = some (value, first)) (differs : value ≠ xattr.value) :
      draft.Replaces (.xattr xattr) (.attributeOverridden xattr.name) first

/-- What a report says of overrides. -/
inductive Names (draft : Draft) (resource : Resource) : Report → Prop
  | merged : draft.Names resource .merged
  | unfit {reason : ConflictReason} {first : Provenance} (other : ∀ kind, reason ≠ .override kind) :
      draft.Names resource (.refused reason first)
  | overrode {notice : Notice} {first : Provenance} (h : draft.Replaces resource notice first) :
      draft.Names resource (.overrode notice first)
  | refused {notice : Notice} {first : Provenance} (h : draft.Replaces resource notice first) :
      draft.Names resource (.refused (.override resource.kind) first)

variable (draft strictness) (source : Provenance)

theorem names_create (spec : EntrySpec) : draft.Names (.entry spec) (draft.create strictness spec source).2 := by
  rw [create]
  cases hs : draft.standing with
  | pending => exact .merged
  | implicit => exact .merged
  | removed first => exact .unfit (by simp)
  | entry existing first =>
    simp only
    split
    · exact .unfit (by simp)
    · rename_i hkind
      split
      · exact .merged
      · rename_i hne
        have hreplaces := Replaces.entry hs (not_not.1 hkind) hne
        split
        · exact .refused hreplaces
        · exact .overrode hreplaces

theorem names_adjust (permissions : Permissions) :
    draft.Names (.permissions permissions) (draft.adjust strictness permissions source).2 := by
  rw [adjust]
  cases hadjustment : draft.adjustment with
  | none => exact .merged
  | some adjustment =>
    simp only
    split
    · exact .merged
    · rename_i hchanged
      have hreplaces := Replaces.fields hadjustment hchanged
      split
      · exact .refused hreplaces
      · exact .overrode hreplaces

theorem names_attach (xattr : Attribute) :
    draft.Names (.xattr xattr) (draft.attach strictness xattr source).2 := by
  rw [attach]
  cases hfind : draft.xattrs.find? xattr.name with
  | none => exact .merged
  | some held =>
    simp only
    split
    · exact .merged
    · rename_i hne
      have hreplaces := Replaces.xattr hfind hne
      split
      · exact .refused hreplaces
      · exact .overrode hreplaces

theorem names_merge (resource : Resource) : draft.Names resource (draft.merge strictness resource source).2 := by
  cases resource with
  | entry spec => exact draft.names_create strictness source spec
  | permissions permissions => exact draft.names_adjust strictness source permissions
  | xattr xattr => exact draft.names_attach strictness source xattr
  | absent => exact .merged

end Draft

/-! ## A builder -/

namespace Builder

/-- Those of some declarations that are accepted when they are offered one after the other. -/
def taken (b : Builder) : List Declaration → List Declaration
  | [] => []
  | d :: rest => if (b.add d).2 = none then d :: (b.add d).1.taken rest else (b.add d).1.taken rest

theorem addEach_concat (b : Builder) (ds : List Declaration) (d : Declaration) :
    b.addEach (ds ++ [d]) = ((b.addEach ds).add d).1 :=
  List.foldl_concat ..

/-- A builder gives credit where it is due at every path that nothing has removed. -/
structure Credits (b : Builder) (accepted ds : List Declaration) : Prop where
  draft : ∀ {p}, ¬IsRemoved ds p → (b.draft p).Credits (declaredAt p accepted) (declaredAt p ds)

variable {b b' : Builder} {ds accepted : List Declaration} {d : Declaration}

/-- The position of a draft without declarations is of no account. -/
theorem credits_draft_congr {p : TargetPath} {taken declared : List Declaration}
    (h : (b.draft p).Credits taken declared) (hfind : b'.drafts.find? p = b.drafts.find? p) :
    (b'.draft p).Credits taken declared := by
  rw [Builder.draft] at h ⊢
  rw [hfind]
  cases hdraft : b.drafts.find? p with
  | none =>
    rw [hdraft] at h
    exact ⟨h.entry, h.xattr, h.overlay, h.last⟩
  | some draft =>
    rw [hdraft] at h
    exact h

/-- What is put back has the merged values, whether or not the declaration was refused. -/
theorem credits_draft_merge {taken declared : List Declaration}
    (h : ((b.draft d.path).merge b.strictness d.resource d.provenance).1.Credits taken declared) :
    ((b.merge d).1.draft d.path).Credits taken declared := by
  obtain ⟨draft, report, hmerge, ⟨reason, first, -, hmerged⟩ | ⟨-, more, hmerged⟩⟩ := b.merge_cases d <;>
    rw [hmerge] at h <;> rw [hmerged, Builder.draft, SortedMap.find?_insert_self, Option.getD_some]
  · exact h
  · exact h.contribute d

theorem Credits.add (h : b.Credits accepted ds) (hknows : b.Knows ds) (d : Declaration) :
    (b.add d).1.Credits (accepted ++ if (b.add d).2 = none then [d] else []) (ds ++ [d]) := by
  refine ⟨fun {p} hp => ?_⟩
  obtain ⟨hbefore, hcover⟩ := not_or.1 (isRemoved_concat.not.1 hp)
  -- At any other path neither declarations nor the draft have changed.
  have hother : p ≠ d.path → (b.add d).1.drafts.find? p = b.drafts.find? p →
      ((b.add d).1.draft p).Credits (declaredAt p (accepted ++ if (b.add d).2 = none then [d] else []))
        (declaredAt p (ds ++ [d])) := by
    intro hne hfind
    have hnone : declaredAt p (if (b.add d).2 = none then [d] else []) = [] := by
      split
      · exact declaredAt_of_ne hne
      · rfl
    rw [declaredAt_append, declaredAt_append, declaredAt_of_ne hne, hnone, List.append_nil, List.append_nil]
    exact credits_draft_congr (h.draft hbefore) hfind
  obtain ⟨hd, heq⟩ | ⟨hd, first, hremoval, heq⟩ | ⟨hd, hremoval, heq⟩ := b.add_cases d
  · obtain ⟨hne, habove⟩ := not_or.1 (List.mem_cons.not.1 fun hmem => hcover ⟨hd, hmem⟩)
    refine hother (Ne.symm hne) ?_
    rw [heq, find?_remove, if_neg (Ne.symm hne), if_neg habove]
  · have hne : p ≠ d.path := by
      rintro rfl
      exact hbefore (hknows.removed.1 (by rw [hremoval]; rfl))
    refine hother hne ?_
    rw [heq]
  · by_cases hne : p = d.path
    · subst hne
      have hmerged := (h.draft hbefore).merge b.strictness hd
        (draft_standing_ne_removed (hknows.removalAt?_eq_none hbefore))
      have hcredited : declaredAt d.path (if (b.merge d).2 = none then [d] else []) =
          Draft.credited ((b.draft d.path).merge b.strictness d.resource d.provenance).2 d := by
        rw [Draft.credited, ← reason_merge]
        cases (b.merge d).2 with
        | none => exact declaredAt_singleton d
        | some conflict => rfl
      rw [heq, declaredAt_append, declaredAt_append, declaredAt_singleton, hcredited]
      exact credits_draft_merge hmerged
    · refine hother hne ?_
      rw [heq]
      obtain ⟨draft, report, -, ⟨reason, first, -, hmerged⟩ | ⟨-, more, hmerged⟩⟩ := b.merge_cases d <;>
        rw [hmerged, SortedMap.find?_insert_of_ne _ hne]

theorem Credits.addEach (h : b.Credits accepted ds) (hknows : b.Knows ds) (more : List Declaration) :
    (b.addEach more).Credits (accepted ++ b.taken more) (ds ++ more) := by
  induction more generalizing b accepted ds with
  | nil => rwa [taken, List.append_nil, List.append_nil]
  | cons d rest ih =>
    have hrest := ih (h.add hknows d) (hknows.add d)
    rw [List.append_assoc, List.append_assoc, List.singleton_append] at hrest
    rw [taken]
    split at hrest
    · rename_i haccepted
      rw [if_pos haccepted]
      exact hrest
    · rename_i hrefused
      rw [if_neg hrefused]
      exact hrest

theorem credits_addEach (strictness : Strictness) (ds : List Declaration) :
    ((new strictness).addEach ds).Credits ((new strictness).taken ds) ds := by
  have h : (new strictness).Credits [] [] := ⟨fun _ => Draft.credits_fresh 0⟩
  exact h.addEach (knows_new strictness) ds

/-! ## Overrides -/

/-- The earlier declaration that an override of `d` names: where an entry or an attribute is replaced, one that was
    accepted and set the value in force; where fields of a permission-set are changed, the last permission-set, which
    need not have set any of them. -/
inductive IsNamed (accepted before : List Declaration) (d : Declaration) : Notice → Provenance → Prop
  | entry {existing spec : EntrySpec} {first : Provenance} (resource : d.resource = .entry spec)
      (inForce : lastOf Declaration.entry? (declaredAt d.path accepted) = some existing)
      (kind : existing.kind = spec.kind) (differs : existing ≠ spec)
      (setter : ∃ earlier ∈ declaredAt d.path accepted, earlier.entry? = some existing ∧ earlier.provenance = first) :
      IsNamed accepted before d (.entryOverridden spec.kind) first
  | xattr {value : Octets} {xattr : Attribute} {first : Provenance} (resource : d.resource = .xattr xattr)
      (inForce : lastOf (Declaration.attribute? xattr.name) (declaredAt d.path accepted) = some value)
      (differs : value ≠ xattr.value)
      (setter : ∃ earlier ∈ declaredAt d.path accepted,
        earlier.attribute? xattr.name = some value ∧ earlier.provenance = first) :
      IsNamed accepted before d (.attributeOverridden xattr.name) first
  | fields {permissions : Permissions} {last : Provenance} (resource : d.resource = .permissions permissions)
      (changed : (lastSet (declaredAt d.path before)).changed permissions ≠ [])
      (latest : lastSetter (declaredAt d.path before) = some last) :
      IsNamed accepted before d (.fieldsOverridden ((lastSet (declaredAt d.path before)).changed permissions)) last

theorem isNamed_of_replaces {draft : Draft} {notice : Notice} {first : Provenance}
    (h : draft.Credits (declaredAt d.path accepted) (declaredAt d.path ds))
    (hreplaces : draft.Replaces d.resource notice first) : IsNamed accepted ds d notice first := by
  generalize hresource : d.resource = resource at hreplaces
  cases hreplaces with
  | entry stands kind differs =>
    have hheld := h.entry
    rw [stands] at hheld
    exact .entry hresource hheld.value.symm kind differs (hheld.source _ _ rfl)
  | fields adjusted changed =>
    have hoverlay := (Draft.overlay_of_some adjusted).symm.trans h.overlay
    have hlast := h.last
    rw [adjusted] at hlast
    simp only at hoverlay
    subst hoverlay
    exact .fields hresource changed hlast.symm
  | @xattr value xattr first attached differs =>
    have hheld := h.xattr xattr.name
    rw [attached] at hheld
    exact .xattr hresource hheld.value.symm differs (hheld.source _ _ rfl)

/-- What overrides of one more declaration name. -/
theorem Credits.isNamed (h : b.Credits accepted ds) (hknows : b.Knows ds) (d : Declaration) :
    (∀ c kind, (b.add d).2 = some c → c.reason = .override kind →
      c.path = d.path ∧ c.second = d.provenance ∧ ∃ notice, IsNamed accepted ds d notice c.first) ∧
    ∃ more, (b.add d).1.warnings = b.warnings ++ more ∧ ∀ w ∈ more, w.notice.isOverride →
      ∃ first, w.path = d.path ∧ w.provenance = [first, d.provenance] ∧ IsNamed accepted ds d w.notice first := by
  obtain ⟨hd, heq⟩ | ⟨hd, first, hremoval, heq⟩ | ⟨hd, hremoval, heq⟩ := b.add_cases d
  · rw [heq]
    obtain hsilent | ⟨count, hwarnings⟩ := b.warnings_remove_cases d
    · exact ⟨by simp, [], by simp [hsilent], by simp⟩
    · refine ⟨by simp, _, hwarnings, fun w hw hoverride => ?_⟩
      rw [List.mem_singleton.1 hw] at hoverride
      cases hoverride
  · rw [heq]
    refine ⟨?_, [], (List.append_nil _).symm, by simp⟩
    rintro c kind ⟨⟩ ⟨⟩
  · have hopen : ¬IsRemoved ds d.path := by
      rw [← hknows.removed, hremoval]
      simp
    have hnames := (b.draft d.path).names_merge b.strictness d.provenance d.resource
    rw [heq]
    cases hmerge : (b.draft d.path).merge b.strictness d.resource d.provenance with
    | mk draft report =>
      rw [hmerge] at hnames
      cases hnames with
      | merged =>
        rw [merge_of_merged hmerge]
        exact ⟨by simp, [], (List.append_nil _).symm, by simp⟩
      | unfit other =>
        rw [merge_of_refused hmerge]
        refine ⟨?_, [], (List.append_nil _).symm, by simp⟩
        rintro c kind ⟨⟩ hreason
        exact absurd hreason (other kind)
      | overrode hreplaces =>
        rw [merge_of_overrode hmerge]
        refine ⟨by simp, _, rfl, fun w hw _ => ?_⟩
        rw [List.mem_singleton.1 hw]
        exact ⟨_, rfl, rfl, isNamed_of_replaces (h.draft hopen) hreplaces⟩
      | refused hreplaces =>
        rw [merge_of_refused hmerge]
        refine ⟨?_, [], (List.append_nil _).symm, by simp⟩
        rintro c kind ⟨⟩ -
        exact ⟨rfl, rfl, _, isNamed_of_replaces (h.draft hopen) hreplaces⟩

/-- What the overrides of declarations name, whichever of them are accepted. -/
structure IsAttributed (strictness : Strictness) (ds : List Declaration) : Prop where
  /-- A conflict for an override names the declaration that is refused and one before it. -/
  conflict : ∀ d c kind, (((new strictness).addEach ds).add d).2 = some c → c.reason = .override kind →
    c.path = d.path ∧ c.second = d.provenance ∧ ∃ notice, IsNamed ((new strictness).taken ds) ds d notice c.first
  /-- A warning of an override names the declaration that overrides and one before it. -/
  warning : ∀ w ∈ ((new strictness).addEach ds).warnings, w.notice.isOverride →
    ∃ before d after first, ds = before ++ d :: after ∧ w.path = d.path ∧ w.provenance = [first, d.provenance] ∧
      IsNamed ((new strictness).taken before) before d w.notice first

/-- Every override names the later declaration and one before it at the same path: the one whose entry or attribute is
    replaced, or the last permission-set. -/
theorem addEach_isAttributed (strictness : Strictness) (ds : List Declaration) : IsAttributed strictness ds where
  conflict d c kind := ((credits_addEach strictness ds).isNamed (knows_addEach strictness ds) d).1 c kind
  warning := by
    induction ds using List.reverseRecOn with
    | nil => simp [addEach, new]
    | append_singleton before d ih =>
      -- A warning was there before the last declaration, or it is one of that declaration.
      obtain ⟨-, more, hwarnings, hmore⟩ :=
        (credits_addEach strictness before).isNamed (knows_addEach strictness before) d
      intro w hw hoverride
      rw [addEach_concat, hwarnings] at hw
      rcases List.mem_append.1 hw with hw | hw
      · obtain ⟨earlier, d', after, first, rfl, hnamed⟩ := ih w hw hoverride
        exact ⟨earlier, d', after ++ [d], first, by simp, hnamed⟩
      · obtain ⟨first, hnamed⟩ := hmore w hw hoverride
        exact ⟨before, d, [], first, rfl, hnamed⟩

/-- A file that is declared twice alike and then with another content. -/
def labelled : List Declaration :=
  [⟨⟨["mnt", "label"], by decide⟩, .entry (.bare (.file [97])), ⟨"mount", 0⟩, [], by decide, by decide⟩,
    ⟨⟨["mnt", "label"], by decide⟩, .entry (.bare (.file [97])), ⟨"mount", 1⟩, [], by decide, by decide⟩,
    ⟨⟨["mnt", "label"], by decide⟩, .entry (.bare (.file [98])), ⟨"mount", 2⟩, [], by decide, by decide⟩]

/-- The warning names the first of the two that declare the content which is replaced. -/
theorem labelled_isAttributed :
    ((new .lenient).addEach labelled).warnings =
      [⟨⟨["mnt", "label"], by decide⟩, .entryOverridden .regularFile, [⟨"mount", 0⟩, ⟨"mount", 2⟩]⟩] ∧
    ∃ before d after, labelled = before ++ d :: after ∧ d.provenance = ⟨"mount", 2⟩ ∧
      IsNamed ((new .lenient).taken before) before d (.entryOverridden .regularFile) ⟨"mount", 0⟩ := by
  have hwarnings : ((new .lenient).addEach labelled).warnings =
      [⟨⟨["mnt", "label"], by decide⟩, .entryOverridden .regularFile, [⟨"mount", 0⟩, ⟨"mount", 2⟩]⟩] := by cbv
  obtain ⟨before, d, after, first, hsplit, -, hprovenance, hnamed⟩ :=
    (addEach_isAttributed .lenient labelled).warning _ (by rw [hwarnings]; exact List.mem_singleton_self _) rfl
  simp only [List.cons.injEq, and_true] at hprovenance
  obtain ⟨rfl, hsecond⟩ := hprovenance
  exact ⟨hwarnings, before, d, after, hsplit, hsecond.symm, hnamed⟩

/-- A directory with a mode, an owner and another mode, each of a permission-set of its own. -/
def remounted : List Declaration :=
  [⟨⟨["mnt"], by decide⟩, .entry (.bare .directory), ⟨"mount", 0⟩, [], by decide, by decide⟩,
    ⟨⟨["mnt"], by decide⟩, .permissions ⟨some ⟨0o755⟩, none, none⟩, ⟨"mount", 1⟩, [], by decide, by decide⟩,
    ⟨⟨["mnt"], by decide⟩, .permissions ⟨none, some ⟨some "root", none⟩, none⟩, ⟨"mount", 2⟩, [], by decide, by decide⟩,
    ⟨⟨["mnt"], by decide⟩, .permissions ⟨some ⟨0o700⟩, none, none⟩, ⟨"mount", 3⟩, [], by decide, by decide⟩]

/-- Only the mode is overridden, and the warning names the declaration that sets the owner alone. -/
theorem remounted_misattributed :
    ((new .lenient).addEach remounted).warnings =
      [⟨⟨["mnt"], by decide⟩, .fieldsOverridden [.mode], [⟨"mount", 2⟩, ⟨"mount", 3⟩]⟩] ∧
    (∀ d ∈ remounted, d.provenance = ⟨"mount", 2⟩ → d.permissions? = some ⟨none, some ⟨some "root", none⟩, none⟩) ∧
    ∀ d ∈ remounted, d.provenance = ⟨"mount", 1⟩ → d.permissions? = some ⟨some ⟨0o755⟩, none, none⟩ := by
  exact ⟨by cbv, by decide, by decide⟩

end Builder

end Provision
