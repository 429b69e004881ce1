import Provision.Proofs.Merge.Outcome
import Provision.Proofs.Merge.Refusal

/-! # Verdicts

Whether a declaration is accepted can be told from the declarations before it, without knowing which of those were
refused: what has been removed stays removed, and the first entry at a path settles its kind.

* `IsRemoved`, `firstKind?` — what is read off the declarations before.
* `IsVerdict` — what becomes of a declaration after others.
* `Builder.Knows` — the invariant: a builder knows as much of the declarations that were offered to it; `Knows.add`
  and `Builder.knows_addEach` — it keeps it, whatever it refuses.
* `Builder.addEach_isVerdict` — the statement, with what it means for the graph in the end.
-/

namespace Provision

/-! ## Reading declarations -/

/-- Whether some of the declarations remove a path, or one above it. -/
def IsRemoved (ds : List Declaration) (p : TargetPath) : Prop :=
  ∃ d ∈ ds, d.IsRemoval ∧ d.path ∈ p :: p.ancestors

/-- The kind of the first entry at a path. -/
def firstKind? (ds : List Declaration) (p : TargetPath) : Option Kind :=
  (ds.filter (·.path = p)).findSome? fun d => d.entry?.map EntrySpec.kind

theorem isRemoved_concat {ds : List Declaration} {d : Declaration} {p : TargetPath} :
    IsRemoved (ds ++ [d]) p ↔ IsRemoved ds p ∨ d.IsRemoval ∧ d.path ∈ p :: p.ancestors := by
  simp only [IsRemoved, List.mem_append, List.mem_singleton]
  constructor
  · rintro ⟨d', hd' | rfl, h⟩
    · exact .inl ⟨d', hd', h⟩
    · exact .inr h
  · rintro (⟨d', hd', h⟩ | h)
    · exact ⟨d', .inl hd', h⟩
    · exact ⟨d, .inr rfl, h⟩

theorem isRemoved_concat_of_not_removal {ds : List Declaration} {d : Declaration} (hd : ¬d.IsRemoval) (p : TargetPath) :
    IsRemoved (ds ++ [d]) p ↔ IsRemoved ds p :=
  isRemoved_concat.trans (or_iff_left fun h => hd h.1)

theorem IsRemoved.of_mem_ancestors {ds : List Declaration} {p q : TargetPath} (h : IsRemoved ds q)
    (hq : q ∈ p.ancestors) : IsRemoved ds p := by
  obtain ⟨d, hd, hremoval, hmem⟩ := h
  refine ⟨d, hd, hremoval, List.mem_cons_of_mem _ ?_⟩
  rcases List.mem_cons.1 hmem with heq | habove
  · rwa [heq]
  · exact TargetPath.mem_ancestors_trans hq habove

theorem firstKind?_concat_self (ds : List Declaration) (d : Declaration) :
    firstKind? (ds ++ [d]) d.path = (firstKind? ds d.path).or (d.entry?.map EntrySpec.kind) := by
  simp [firstKind?, List.findSome?_append]

theorem firstKind?_concat_of_ne {ds : List Declaration} {d : Declaration} {p : TargetPath} (h : p ≠ d.path) :
    firstKind? (ds ++ [d]) p = firstKind? ds p := by
  simp [firstKind?, h.symm]

theorem isRemoved_append_self {ds : List Declaration} {p : TargetPath} : IsRemoved (ds ++ ds) p ↔ IsRemoved ds p := by
  simp only [IsRemoved, List.mem_append, or_self]

theorem firstKind?_append_self {ds : List Declaration} {p : TargetPath} : firstKind? (ds ++ ds) p = firstKind? ds p := by
  rw [firstKind?, List.filter_append, List.findSome?_append, Option.or_self]
  rfl

/-- What becomes of a declaration that comes after others, refused or not: the reason for which it is refused, if it
    is. -/
structure IsVerdict (strictness : Strictness) (before : List Declaration) (d : Declaration)
    (reason : Option ConflictReason) : Prop where
  /-- A removal is accepted. -/
  removal : d.IsRemoval → reason = none
  /-- All else comes too late exactly where something was removed. -/
  late : ¬d.IsRemoval → (reason = some (.declaredAfterRemoval d.kind) ↔ IsRemoved before d.path)
  /-- Otherwise an entry does not fit exactly where the first entry is of another kind. -/
  unfit : d.entry?.isSome → ¬IsRemoved before d.path → ∀ existing,
    (reason = some (.incompatibleKinds existing d.kind) ↔ firstKind? before d.path = some existing ∧ existing ≠ d.kind)
  /-- There is no other reason, but for an override where that is forbidden. -/
  other : reason = none ∨ reason = some (.declaredAfterRemoval d.kind) ∨
    (d.entry?.isSome ∧ ∃ existing, reason = some (.incompatibleKinds existing d.kind)) ∨
    strictness = .strict ∧ reason = some (.override d.kind)

/-! ## One draft -/

/-- The kind of the entry that stands. -/
def Standing.kind? : Standing → Option Kind
  | .entry spec _ => some spec.kind
  | _ => none

/-- The reason for a refusal. -/
def Report.reason? : Report → Option ConflictReason
  | .refused reason _ => some reason
  | _ => none

namespace Draft

/-- What comes of a declaration at a draft that no removal covers: the first entry settles the kind, whatever is
    declared after it and whether or not that is refused. -/
structure Judges (strictness : Strictness) (draft : Draft) (d : Declaration) (result : Draft × Report) : Prop where
  not_removed : ∀ first, result.1.standing ≠ .removed first
  kind : result.1.standing.kind? = draft.standing.kind?.or (d.entry?.map EntrySpec.kind)
  unfit : ∀ existing, result.2.reason? = some (.incompatibleKinds existing d.kind) ↔
    d.entry?.isSome ∧ draft.standing.kind? = some existing ∧ existing ≠ d.kind
  other : result.2.reason? = none ∨
    (d.entry?.isSome ∧ ∃ existing, result.2.reason? = some (.incompatibleKinds existing d.kind)) ∨
    strictness = .strict ∧ result.2.reason? = some (.override d.kind)

variable {strictness : Strictness} {draft : Draft} {d : Declaration}

theorem judges_create (hopen : ∀ first, draft.standing ≠ .removed first) {spec : EntrySpec}
    (hd : d.resource = .entry spec) : draft.Judges strictness d (draft.create strictness spec d.provenance) := by
  have hentry : d.entry? = some spec := by rw [Declaration.entry?, hd]
  have hkind : d.kind = spec.kind := by rw [Declaration.kind, hd, Resource.kind]
  rw [create]
  cases hs : draft.standing with
  | removed first => exact absurd hs (hopen first)
  | pending => constructor <;> simp [hs, hentry, Standing.kind?, Report.reason?]
  | implicit => constructor <;> simp [hs, hentry, Standing.kind?, Report.reason?]
  | entry existing first =>
    simp only
    by_cases hfit : existing.kind = spec.kind
    · rw [if_neg (not_not.2 hfit)]
      split
      · constructor <;> simp [hs, hentry, hkind, hfit, Standing.kind?, Report.reason?]
      · split
        · rename_i hstrict
          constructor <;> simp [hs, hentry, hkind, hfit, hstrict, Standing.kind?, Report.reason?]
        · constructor <;> simp [hs, hentry, hkind, hfit, Standing.kind?, Report.reason?]
    · rw [if_pos hfit]
      constructor <;> simp [hs, hentry, hkind, hfit, Standing.kind?, Report.reason?]

/-- An adjustment leaves what is known about the existence of the path as it was. -/
theorem judges_adjustment (hopen : ∀ first, draft.standing ≠ .removed first) (hd : d.entry? = none)
    {result : Draft × Report} (hstanding : result.1.standing = draft.standing)
    (hreason : result.2.reason? = none ∨ strictness = .strict ∧ result.2.reason? = some (.override d.kind)) :
    draft.Judges strictness d result where
  not_removed := by rwa [hstanding]
  kind := by simp [hstanding, hd]
  unfit existing := by
    rcases hreason with hreason | ⟨-, hreason⟩ <;> simp [hreason, hd]
  other := hreason.imp_right .inr

theorem judges_adjust (hopen : ∀ first, draft.standing ≠ .removed first) {permissions : Permissions}
    (hd : d.resource = .permissions permissions) :
    draft.Judges strictness d (draft.adjust strictness permissions d.provenance) := by
  have hkind : d.kind = .permissionSet := by rw [Declaration.kind, hd, Resource.kind]
  refine judges_adjustment hopen (by rw [Declaration.entry?, hd]) ?_ ?_
  · obtain ⟨adjustment, heq, -⟩ := draft.adjust_overlay strictness permissions d.provenance
    rw [heq]
  · rw [adjust]
    cases draft.adjustment with
    | none => exact .inl rfl
    | some adjustment =>
      simp only
      split
      · exact .inl rfl
      · split
        · rename_i hstrict
          exact .inr ⟨hstrict, by rw [hkind]; rfl⟩
        · exact .inl rfl

theorem judges_attach (hopen : ∀ first, draft.standing ≠ .removed first) {xattr : Attribute}
    (hd : d.resource = .xattr xattr) :
    draft.Judges strictness d (draft.attach strictness xattr d.provenance) := by
  have hkind : d.kind = .extendedAttribute := by rw [Declaration.kind, hd, Resource.kind]
  have hentry : d.entry? = none := by rw [Declaration.entry?, hd]
  rw [attach]
  cases draft.xattrs.find? xattr.name with
  | none => exact judges_adjustment hopen hentry rfl (.inl rfl)
  | some held =>
    simp only
    split
    · exact judges_adjustment hopen hentry rfl (.inl rfl)
    · split
      · rename_i hstrict
        exact judges_adjustment hopen hentry rfl (.inr ⟨hstrict, by rw [hkind]; rfl⟩)
      · exact judges_adjustment hopen hentry rfl (.inl rfl)

theorem judges_merge (hopen : ∀ first, draft.standing ≠ .removed first) (hd : ¬d.IsRemoval) :
    draft.Judges strictness d (draft.merge strictness d.resource d.provenance) := by
  cases hresource : d.resource with
  | entry spec => exact judges_create hopen hresource
  | permissions permissions => exact judges_adjust hopen hresource
  | xattr xattr => exact judges_attach hopen hresource
  | absent => exact absurd hresource hd

end Draft

/-! ## A builder -/

namespace Builder

/-- A builder knows of the declarations that were offered to it, accepted or not, what has been removed and of which
    kind paths are. -/
structure Knows (b : Builder) (ds : List Declaration) : Prop where
  removed : ∀ {p}, (b.removal? p).isSome ↔ IsRemoved ds p
  /-- Where something is removed only removals are kept. -/
  swept : ∀ {p draft}, b.drafts.find? p = some draft → IsRemoved ds p → ∃ source, draft.standing = .removed source
  kind : ∀ {p}, ¬IsRemoved ds p → (b.draft p).standing.kind? = firstKind? ds p

variable {b b' : Builder} {ds : List Declaration} {d : Declaration}

/-- A path is known to be removed when it is removed itself or lies beneath one that is. -/
theorem isSome_removal?_iff {p : TargetPath} :
    (b.removal? p).isSome ↔ ∃ q ∈ p :: p.ancestors, (b.removalAt? q).isSome := by
  rw [removal?, List.findSome?_isSome_iff]

theorem removalAt?_congr {p : TargetPath} (h : b'.drafts.find? p = b.drafts.find? p) :
    b'.removalAt? p = b.removalAt? p := by
  rw [removalAt?, removalAt?, h]

theorem kind?_draft (b : Builder) (p : TargetPath) :
    (b.draft p).standing.kind? = (b.drafts.find? p).bind (·.standing.kind?) := by
  rw [draft]
  cases b.drafts.find? p <;> rfl

theorem knows_new (strictness : Strictness) : (new strictness).Knows [] where
  removed {p} := by
    refine iff_of_false (fun h => ?_) fun ⟨d, hd, _⟩ => List.not_mem_nil hd
    obtain ⟨q, -, hq⟩ := isSome_removal?_iff.1 h
    cases hq
  swept h := by cases h
  kind _ := rfl

namespace Knows

theorem removal?_eq_none (h : b.Knows ds) {p : TargetPath} (hp : ¬IsRemoved ds p) : b.removal? p = none := by
  rwa [← Option.not_isSome_iff_eq_none, h.removed]

theorem removalAt?_eq_none (h : b.Knows ds) {p : TargetPath} (hp : ¬IsRemoved ds p) : b.removalAt? p = none :=
  removal?_eq_none_iff.1 (h.removal?_eq_none hp) p List.mem_cons_self

/-- After a removal all beneath it is known to be removed, and the rest is known as before. -/
theorem remove (h : b.Knows ds) (hd : d.IsRemoval) : (b.remove d).Knows (ds ++ [d]) := by
  have hconcat : ∀ {p}, IsRemoved (ds ++ [d]) p ↔ IsRemoved ds p ∨ d.path ∈ p :: p.ancestors := by
    intro p
    rw [isRemoved_concat, and_iff_right hd]
  have hself : (b.remove d).drafts.find? d.path =
      some (((b.draft d.path).removed d.provenance).contribute d) := by
    rw [find?_remove, if_pos rfl]
  have hsource := removalAt?_eq_some_iff.2 ⟨_, hself, Draft.contribute_standing _ d⟩
  have hother : ∀ {p}, d.path ∉ p :: p.ancestors → (b.remove d).drafts.find? p = b.drafts.find? p := by
    intro p hp
    rw [List.mem_cons, not_or] at hp
    rw [find?_remove, if_neg (Ne.symm hp.1), if_neg hp.2]
  refine ⟨fun {p} => ?removed, fun {p draft} hfind hp => ?swept, fun {p} hp => ?kind⟩
  case removed =>
    by_cases hp : d.path ∈ p :: p.ancestors
    · exact iff_of_true (isSome_removal?_iff.2 ⟨d.path, hp, by rw [hsource]; rfl⟩) (hconcat.2 (.inr hp))
    · -- Nor does the removal cover any path above this one.
      have habove : ∀ q ∈ p :: p.ancestors, (b.remove d).removalAt? q = b.removalAt? q := by
        intro q hq
        refine removalAt?_congr (hother fun hmem => hp ?_)
        rcases List.mem_cons.1 hq with rfl | hq
        · exact hmem
        · rcases List.mem_cons.1 hmem with heq | hmem
          · exact List.mem_cons_of_mem _ (heq ▸ hq)
          · exact List.mem_cons_of_mem _ (TargetPath.mem_ancestors_trans hq hmem)
      rw [hconcat, or_iff_left hp, ← h.removed, isSome_removal?_iff, isSome_removal?_iff]
      exact exists_congr fun q => and_congr_right fun hq => by rw [habove q hq]
  case swept =>
    by_cases hmem : d.path ∈ p :: p.ancestors
    · rcases List.mem_cons.1 hmem with heq | habove
      · rw [← heq, hself] at hfind
        cases hfind
        exact ⟨_, Draft.contribute_standing _ d⟩
      · have hne : p ≠ d.path := fun e => TargetPath.not_mem_ancestors_self p (e ▸ habove)
        rw [find?_remove, if_neg hne, if_pos habove] at hfind
        cases hfind
    · rw [hother hmem] at hfind
      exact h.swept hfind ((hconcat.1 hp).resolve_right hmem)
  case kind =>
    obtain ⟨hbefore, hmem⟩ := not_or.1 (hconcat.not.1 hp)
    have hne : p ≠ d.path := fun e => hmem (List.mem_cons.2 (.inl e.symm))
    rw [firstKind?_concat_of_ne hne, ← h.kind hbefore, kind?_draft, kind?_draft, hother hmem]

/-- What is no removal can only change what is known of the kind of its path. -/
theorem of_find? (h : b.Knows ds) (hd : ¬d.IsRemoval)
    (hother : ∀ p, p ≠ d.path → b'.drafts.find? p = b.drafts.find? p)
    (hself : b'.drafts.find? d.path = b.drafts.find? d.path ∧ IsRemoved ds d.path ∨
      ∃ draft, b'.drafts.find? d.path = some draft ∧ (∀ first, draft.standing ≠ .removed first) ∧
        ¬IsRemoved ds d.path ∧ draft.standing.kind? = firstKind? (ds ++ [d]) d.path) : b'.Knows (ds ++ [d]) := by
  have hconcat : ∀ p, IsRemoved (ds ++ [d]) p ↔ IsRemoved ds p := isRemoved_concat_of_not_removal hd
  have hat : ∀ p, b'.removalAt? p = b.removalAt? p := by
    intro p
    by_cases hp : p = d.path
    · subst hp
      obtain ⟨hsame, -⟩ | ⟨draft, hfind, hopen, hbefore, -⟩ := hself
      · exact removalAt?_congr hsame
      · rw [h.removalAt?_eq_none hbefore, ← Option.not_isSome_iff_eq_none, Option.isSome_iff_exists]
        rintro ⟨source, hsource⟩
        obtain ⟨found, hfound, hremoved⟩ := removalAt?_eq_some_iff.1 hsource
        cases hfind.symm.trans hfound
        exact hopen source hremoved
    · exact removalAt?_congr (hother p hp)
  have hremoval : ∀ p, b'.removal? p = b.removal? p := fun p => by
    rw [removal?, removal?, funext hat]
  refine ⟨fun {p} => ?removed, fun {p draft} hfind hp => ?swept, fun {p} hp => ?kind⟩
  case removed => rw [hremoval, h.removed, hconcat]
  case swept =>
    rw [hconcat] at hp
    by_cases heq : p = d.path
    · subst heq
      obtain ⟨hsame, -⟩ | ⟨-, -, -, hbefore, -⟩ := hself
      · exact h.swept (hsame ▸ hfind) hp
      · exact absurd hp hbefore
    · exact h.swept (hother p heq ▸ hfind) hp
  case kind =>
    rw [hconcat] at hp
    by_cases heq : p = d.path
    · subst heq
      obtain ⟨-, hbefore⟩ | ⟨draft, hfind, -, -, hkind⟩ := hself
      · exact absurd hbefore hp
      · rw [kind?_draft, hfind, ← hkind]
        rfl
    · rw [firstKind?_concat_of_ne heq, ← h.kind hp, kind?_draft, kind?_draft, hother p heq]

theorem judges_merge (h : b.Knows ds) (hd : ¬d.IsRemoval) (hopen : ¬IsRemoved ds d.path) :
    (b.draft d.path).Judges b.strictness d ((b.draft d.path).merge b.strictness d.resource d.provenance) :=
  Draft.judges_merge (draft_standing_ne_removed (h.removalAt?_eq_none hopen)) hd

theorem merge (h : b.Knows ds) (hd : ¬d.IsRemoval) (hopen : ¬IsRemoved ds d.path) :
    (b.merge d).1.Knows (ds ++ [d]) := by
  have hjudges := h.judges_merge hd hopen
  have hkind := hjudges.kind
  rw [h.kind hopen, ← firstKind?_concat_self] at hkind
  -- Refused or not, what is put in has the merged standing.
  have hput : ∃ draft, (b.merge d).1.drafts = b.drafts.insert d.path draft ∧
      draft.standing = ((b.draft d.path).merge b.strictness d.resource d.provenance).1.standing := by
    obtain ⟨draft, report, hmerge, ⟨reason, first, -, heq⟩ | ⟨-, more, heq⟩⟩ := b.merge_cases d
    · exact ⟨draft, by rw [heq], by rw [hmerge]⟩
    · exact ⟨draft.contribute d, by rw [heq], by rw [hmerge, Draft.contribute_standing]⟩
  obtain ⟨draft, hdrafts, hstanding⟩ := hput
  refine h.of_find? hd (fun p hp => by rw [hdrafts, SortedMap.find?_insert_of_ne _ hp]) (.inr ⟨draft, ?_, ?_, hopen, ?_⟩)
  · rw [hdrafts, SortedMap.find?_insert_self]
  · rw [hstanding]
    exact hjudges.not_removed
  · rw [hstanding]
    exact hkind

theorem add (h : b.Knows ds) (d : Declaration) : (b.add d).1.Knows (ds ++ [d]) := by
  obtain ⟨hd, heq⟩ | ⟨hd, first, hremoval, heq⟩ | ⟨hd, hremoval, heq⟩ := b.add_cases d
  · rw [heq]
    exact h.remove hd
  · rw [heq]
    exact h.of_find? hd (fun _ _ => rfl) (.inl ⟨rfl, h.removed.1 (by rw [hremoval]; rfl)⟩)
  · rw [heq]
    refine h.merge hd fun hremoved => ?_
    rw [← h.removed, hremoval] at hremoved
    cases hremoved

theorem addEach (h : b.Knows ds) (more : List Declaration) : (b.addEach more).Knows (ds ++ more) := by
  induction more generalizing b ds with
  | nil => rwa [List.append_nil]
  | cons d rest ih =>
    rw [← List.singleton_append, ← List.append_assoc]
    exact ih (h.add d)

end Knows

theorem knows_addEach (strictness : Strictness) (ds : List Declaration) : ((new strictness).addEach ds).Knows ds :=
  (knows_new strictness).addEach ds

/-! ## Verdicts -/

theorem reason_merge (b : Builder) (d : Declaration) : (b.merge d).2.map (·.reason) =
    ((b.draft d.path).merge b.strictness d.resource d.provenance).2.reason? := by
  cases hmerge : (b.draft d.path).merge b.strictness d.resource d.provenance with
  | mk draft report =>
    cases report with
    | merged => rw [merge_of_merged hmerge]; rfl
    | overrode notice first => rw [merge_of_overrode hmerge]; rfl
    | refused reason first => rw [merge_of_refused hmerge]; rfl

theorem Knows.isVerdict (h : b.Knows ds) (d : Declaration) :
    IsVerdict b.strictness ds d ((b.add d).2.map (·.reason)) := by
  obtain ⟨hd, heq⟩ | ⟨hd, first, hremoval, heq⟩ | ⟨hd, hremoval, heq⟩ := b.add_cases d
  · have hentry : d.entry? = none := by
      rw [Declaration.entry?, show d.resource = .absent from hd]
    rw [heq]
    exact ⟨fun _ => rfl, fun hnot => absurd hd hnot, by simp [hentry], .inl rfl⟩
  · have hbefore : IsRemoved ds d.path := h.removed.1 (by rw [hremoval]; rfl)
    rw [heq]
    exact ⟨fun hyes => absurd hyes hd, fun _ => iff_of_true rfl hbefore, fun _ hnot => absurd hbefore hnot,
      .inr (.inl rfl)⟩
  · have hopen : ¬IsRemoved ds d.path := by
      rw [← h.removed, hremoval]
      simp
    have hjudges := h.judges_merge hd hopen
    rw [heq, reason_merge]
    refine ⟨fun hyes => absurd hyes hd, fun _ => iff_of_false ?late hopen, fun hentry _ existing => ?unfit, ?other⟩
    case late =>
      obtain hreason | ⟨-, existing, hreason⟩ | ⟨-, hreason⟩ := hjudges.other <;> simp [hreason]
    case unfit => rw [hjudges.unfit, h.kind hopen, and_iff_right hentry]
    case other => exact hjudges.other.imp_right .inr

theorem add_strictness (b : Builder) (d : Declaration) : (b.add d).1.strictness = b.strictness := by
  obtain ⟨-, heq⟩ | ⟨-, first, -, heq⟩ | ⟨-, -, heq⟩ := b.add_cases d
  · rw [heq]
    rfl
  · rw [heq]
  · obtain ⟨draft, report, -, ⟨reason, first, -, hmerged⟩ | ⟨-, more, hmerged⟩⟩ := b.merge_cases d <;> rw [heq, hmerged]

theorem addEach_strictness (b : Builder) (ds : List Declaration) : (b.addEach ds).strictness = b.strictness := by
  induction ds generalizing b with
  | nil => rfl
  | cons d rest ih => exact (ih (b.add d).1).trans (b.add_strictness d)

/-- What finished drafts have at a path that was removed: it is known to be absent, and nothing beneath it asks for a
    directory there. -/
theorem Knows.absent (h : b.Knows ds) (hopen : Drafts.IsOpen b.drafts) {g : Graph} (hfinish : b.finish = .ok g) {n : Node}
    (hn : n ∈ g.nodes) (hremoved : IsRemoved ds n.path) : n.state = .absent := by
  rw [finish, Drafts.finish] at hfinish
  split at hfinish
  · cases hfinish
  · rename_i filled hfilledIn
    obtain ⟨hfilled, -⟩ := Drafts.of_filledIn hopen.plain hfilledIn
    cases hgraph : filled.graph b.warnings with
    | error dangling =>
      rw [hgraph] at hfinish
      cases hfinish
    | ok g' =>
      rw [hgraph] at hfinish
      cases hfinish
      obtain ⟨draft, hfind, hnode⟩ := (Drafts.isNodes_of_graph hgraph).sound hn
      obtain ⟨state, hstate, heq⟩ := Drafts.node_eq_ok_iff.1 hnode
      cases hfound : b.drafts.find? n.path with
      | none =>
        -- A directory that was filled in would be above an entry, and that would be removed as well.
        have hneeded : Drafts.IsNeeded b.drafts n.path := by
          by_contra hnot
          rw [hfilled.none hfound hnot] at hfind
          cases hfind
        obtain ⟨q, entry, spec, source, hentry, hstanding, habove⟩ := hneeded
        obtain ⟨source', hswept⟩ := h.swept hentry (hremoved.of_mem_ancestors habove)
        cases hstanding.symm.trans hswept
      | some found =>
        obtain ⟨source, hswept⟩ := h.swept hfound hremoved
        have hkept := hfilled.kept hfound (by rw [hswept]; simp)
        cases hfind.symm.trans hkept
        rw [Draft.state?, hswept] at hstate
        cases hstate
        rw [heq]

/-- Whatever was offered before, and accepted or not: a removal is accepted; what is declared at or beneath something
    removed is refused; and apart from overrides the rest is accepted, unless it is an entry of another kind than the
    first at its path. In the end nothing is at or beneath a path that was ever removed. -/
theorem addEach_isVerdict (strictness : Strictness) (ds : List Declaration) :
    (∀ d, IsVerdict strictness ds d ((((new strictness).addEach ds).add d).2.map (·.reason))) ∧
      ∀ g, ((new strictness).addEach ds).finish = .ok g → ∀ n ∈ g.nodes, IsRemoved ds n.path → n.state = .absent := by
  have h := knows_addEach strictness ds
  refine ⟨fun d => ?_, fun g hfinish n hn hremoved => ?_⟩
  · have hverdict := h.isVerdict d
    rwa [addEach_strictness] at hverdict
  · exact h.absent ((Reachable.new strictness).addEach ds).isOpen hfinish hn hremoved

def clearing : Declaration := ⟨⟨["spool"], by decide⟩, .absent, ⟨"jobs", 2⟩, [], by decide, by decide⟩

/-- A file, which is removed; then the directory around it is removed too, and with it the mark of the first removal. -/
def emptied : List Declaration :=
  [⟨⟨["spool", "job"], by decide⟩, .entry (.bare (.file [])), ⟨"jobs", 0⟩, [], by decide, by decide⟩,
    ⟨⟨["spool", "job"], by decide⟩, .absent, ⟨"jobs", 1⟩, [], by decide, by decide⟩, clearing]

def resubmitted : Declaration :=
  ⟨⟨["spool", "job"], by decide⟩, .entry (.bare (.file [1])), ⟨"jobs", 3⟩, [], by decide, by decide⟩

/-- The file is refused although nothing is kept at its path any more, and in the end nothing is there. -/
theorem resubmitted_isVerdict :
    (((new .lenient).addEach emptied).drafts.find? resubmitted.path).isNone ∧
    (((new .lenient).addEach emptied).add resubmitted).2.map (·.reason) =
      some (.declaredAfterRemoval .regularFile) ∧
    ∃ g, ((new .lenient).addEach (emptied ++ [resubmitted])).finish = .ok g ∧
      g.nodes.map (·.path) = [clearing.path] ∧ ∀ n ∈ g.nodes, n.state = .absent := by
  have habove : clearing.path ∈ resubmitted.path.ancestors := TargetPath.mem_ancestors_iff.2 (by decide)
  have hremoved : IsRemoved emptied resubmitted.path :=
    ⟨clearing, by simp [emptied], rfl, List.mem_cons_of_mem _ habove⟩
  have hlate := ((addEach_isVerdict .lenient emptied).1 resubmitted).late (by decide)
  have hpaths : ((new .lenient).addEach (emptied ++ [resubmitted])).finish.toOption.map
      (fun g => g.nodes.map (·.path)) = some [clearing.path] := by cbv
  refine ⟨by cbv, hlate.2 hremoved, ?_⟩
  cases hfinish : ((new .lenient).addEach (emptied ++ [resubmitted])).finish with
  | error e => rw [hfinish] at hpaths; cases hpaths
  | ok g =>
    rw [hfinish] at hpaths
    have hnodes : g.nodes.map (·.path) = [clearing.path] := Option.some.inj hpaths
    refine ⟨g, rfl, hnodes, fun n hn => (addEach_isVerdict .lenient (emptied ++ [resubmitted])).2 g hfinish n hn ?_⟩
    have hpath : n.path ∈ g.nodes.map (·.path) := List.mem_map_of_mem hn
    rw [hnodes, List.mem_singleton] at hpath
    exact ⟨clearing, by simp [emptied], rfl, by simp [hpath]⟩

end Builder

end Provision
