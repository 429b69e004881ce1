import Provision.Proofs.Merge.Report
import Provision.Proofs.Merge.Verdict

/-! # Finishing after conflicts

A builder that has refused declarations can be finished all the same. What stands then is what was accepted, and the
declarations tell what that is without a look at the builder.

* `Builder.Remembers` — a path that nothing has removed keeps the provenance of the first declaration there.
* `Builder.Knows.stands_iff`, `Builder.Knows.isAdjusted_iff` — entries and adjustments, told from the declarations.
* `Builder.addEach_isFinished` — the statement.
-/

namespace Provision

namespace Builder

/-- Each path that nothing has removed keeps the provenance of the first declaration there. -/
structure Remembers (b : Builder) (ds : List Declaration) : Prop where
  first : ∀ {p}, ¬IsRemoved ds p →
    (b.drafts.find? p).bind (·.provenance.head?) = (ds.find? (·.path = p)).map (·.provenance)

variable {strictness : Strictness} {b b' : Builder} {ds : List Declaration}

theorem head?_draft (b : Builder) (p : TargetPath) :
    (b.draft p).provenance.head? = (b.drafts.find? p).bind (·.provenance.head?) := by
  rw [draft]
  cases b.drafts.find? p <;> rfl

theorem find?_concat_of_ne {d : Declaration} {p : TargetPath} (hp : p ≠ d.path) :
    (ds ++ [d]).find? (·.path = p) = ds.find? (·.path = p) := by
  simp [List.find?_append, hp.symm]

theorem find?_concat_self (ds : List Declaration) (d : Declaration) :
    (ds ++ [d]).find? (·.path = d.path) = (ds.find? (·.path = d.path)).or (some d) := by
  simp [List.find?_append]

theorem Remembers.add (h : b.Remembers ds) (hopen : Drafts.IsOpen b.drafts) (hknows : b.Knows ds) (d : Declaration) :
    (b.add d).1.Remembers (ds ++ [d]) := by
  refine ⟨fun {p} hp => ?_⟩
  obtain ⟨hbefore, hcover⟩ := not_or.1 (isRemoved_concat.not.1 hp)
  obtain ⟨hd, heq⟩ | ⟨hd, first, hremoval, heq⟩ | ⟨hd, -, heq⟩ := b.add_cases d
  · -- A removal takes nothing from a path that it does not cover.
    obtain ⟨hne, habove⟩ := not_or.1 (List.mem_cons.not.1 fun hmem => hcover ⟨hd, hmem⟩)
    rw [heq, find?_remove, if_neg (Ne.symm hne), if_neg habove, find?_concat_of_ne (Ne.symm hne)]
    exact h.first hbefore
  · have hne : p ≠ d.path := by
      rintro rfl
      exact hbefore (hknows.removed.1 (by rw [hremoval]; rfl))
    rw [heq, find?_concat_of_ne hne]
    exact h.first hbefore
  · rw [heq]
    have hframe := ((b.draft d.path).merge_frame b.strictness d.resource d.provenance).1
    obtain ⟨draft, report, hmerge, ⟨reason, first, rfl, hmerged⟩ | ⟨-, more, hmerged⟩⟩ := b.merge_cases d <;>
      rw [hmerge] at hframe <;> rw [hmerged] <;> by_cases hne : p = d.path
    · subst hne
      -- What refuses a declaration is an earlier one.
      have hfind := find?_of_refused hmerge
      have hfirst := h.first hbefore
      obtain ⟨first, rest, hnamed⟩ := List.exists_cons_of_ne_nil (hopen.named hfind)
      simp only [hfind, Option.bind_some, hnamed, List.head?_cons] at hfirst
      obtain ⟨d', hd', hsource⟩ := Option.map_eq_some_iff.1 hfirst.symm
      rw [SortedMap.find?_insert_self, Option.bind_some, hframe, hnamed, List.head?_cons, find?_concat_self, hd',
        Option.some_or, Option.map_some, hsource]
    · rw [SortedMap.find?_insert_of_ne _ hne, find?_concat_of_ne hne]
      exact h.first hbefore
    · subst hne
      rw [SortedMap.find?_insert_self, Option.bind_some, Draft.contribute_provenance, hframe, List.head?_append,
        head?_draft, h.first hbefore, find?_concat_self]
      cases ds.find? (·.path = d.path) <;> rfl
    · rw [SortedMap.find?_insert_of_ne _ hne, find?_concat_of_ne hne]
      exact h.first hbefore

theorem Remembers.addEach (h : b.Remembers ds) (hb : b.Reachable) (hknows : b.Knows ds) (more : List Declaration) :
    (b.addEach more).Remembers (ds ++ more) := by
  induction more generalizing b ds with
  | nil => rwa [List.append_nil]
  | cons d rest ih =>
    rw [← List.singleton_append, ← List.append_assoc]
    exact ih (h.add hb.isOpen hknows d) (hb.add d) (hknows.add d)

theorem remembers_addEach (strictness : Strictness) (ds : List Declaration) :
    ((new strictness).addEach ds).Remembers ds :=
  Remembers.addEach ⟨fun _ => rfl⟩ (.new strictness) (knows_new strictness) ds

theorem Knows.isClear (h : b.Knows ds) (hb : b.Reachable) : Drafts.IsClear b.drafts where
  isOpen := hb.isOpen
  clear := by
    rintro p q draft ⟨spec, source, entry, hentry, hs⟩ hq hfind first hremoved
    have hat : (b.removal? q).isSome :=
      isSome_removal?_iff.2 ⟨q, List.mem_cons_self, by rw [removalAt?_eq_some_iff.2 ⟨draft, hfind, hremoved⟩]; rfl⟩
    obtain ⟨first', hswept⟩ := h.swept hentry ((h.removed.1 hat).of_mem_ancestors hq)
    cases hs.symm.trans hswept

/-- The kinds of entries are those of the first entries, where nothing was removed. -/
theorem Knows.stands_iff (h : b.Knows ds) {p : TargetPath} {kind : Kind} :
    (∃ spec source, Drafts.Stands b.drafts p spec source ∧ spec.kind = kind) ↔
      ¬IsRemoved ds p ∧ firstKind? ds p = some kind := by
  constructor
  · rintro ⟨spec, source, ⟨draft, hfind, hs⟩, rfl⟩
    have hopen : ¬IsRemoved ds p := by
      intro hremoved
      obtain ⟨first, hswept⟩ := h.swept hfind hremoved
      cases hs.symm.trans hswept
    refine ⟨hopen, ?_⟩
    rw [← h.kind hopen, kind?_draft, hfind, Option.bind_some, hs]
    rfl
  · rintro ⟨hopen, hkind⟩
    rw [← h.kind hopen, kind?_draft] at hkind
    obtain ⟨draft, hfind, hstanding⟩ := Option.bind_eq_some_iff.1 hkind
    cases hs : draft.standing with
    | entry spec source =>
      rw [hs] at hstanding
      exact ⟨spec, source, ⟨draft, hfind, hs⟩, Option.some.inj hstanding⟩
    | pending => rw [hs] at hstanding; cases hstanding
    | implicit => rw [hs] at hstanding; cases hstanding
    | removed first => rw [hs] at hstanding; cases hstanding

theorem Remembers.isSome_iff (h : b.Remembers ds) (hopen : Drafts.IsOpen b.drafts) {p : TargetPath}
    (hp : ¬IsRemoved ds p) : (b.drafts.find? p).isSome ↔ ∃ d ∈ ds, d.path = p := by
  have hfirst := h.first hp
  constructor
  · intro hsome
    obtain ⟨draft, hfind⟩ := Option.isSome_iff_exists.1 hsome
    obtain ⟨first, rest, hnamed⟩ := List.exists_cons_of_ne_nil (hopen.named hfind)
    simp only [hfind, Option.bind_some, hnamed, List.head?_cons] at hfirst
    obtain ⟨d, hd, -⟩ := Option.map_eq_some_iff.1 hfirst.symm
    exact ⟨d, List.mem_of_find?_eq_some hd, by simpa using List.find?_some hd⟩
  · rintro ⟨d, hd, rfl⟩
    have hsome : (ds.find? (·.path = d.path)).isSome := List.find?_isSome.2 ⟨d, hd, by simp⟩
    obtain ⟨d', hd'⟩ := Option.isSome_iff_exists.1 hsome
    rw [hd'] at hfirst
    obtain ⟨draft, hfind, -⟩ := Option.bind_eq_some_iff.1 hfirst
    rw [hfind]
    rfl

/-- Paths that nothing has removed and at which there is no entry are adjusted, if there is anything. -/
theorem Knows.isAdjusted_iff (h : b.Knows ds) (hb : b.Reachable) (hremembers : b.Remembers ds) {p : TargetPath} :
    Drafts.IsAdjusted b.drafts p ↔ ¬IsRemoved ds p ∧ firstKind? ds p = none ∧ ∃ d ∈ ds, d.path = p := by
  constructor
  · rintro ⟨draft, hfind, hs⟩
    have hopen : ¬IsRemoved ds p := by
      intro hremoved
      obtain ⟨first, hswept⟩ := h.swept hfind hremoved
      cases hs.symm.trans hswept
    refine ⟨hopen, ?_, (hremembers.isSome_iff hb.isOpen hopen).1 (by rw [hfind]; rfl)⟩
    rw [← h.kind hopen, kind?_draft, hfind, Option.bind_some, hs]
    rfl
  · rintro ⟨hopen, hkind, hdeclared⟩
    obtain ⟨draft, hfind⟩ := Option.isSome_iff_exists.1 ((hremembers.isSome_iff hb.isOpen hopen).2 hdeclared)
    rw [← h.kind hopen, kind?_draft, hfind, Option.bind_some] at hkind
    refine ⟨draft, hfind, ?_⟩
    cases hs : draft.standing with
    | pending => rfl
    | implicit => exact absurd hs (hb.isOpen.plain hfind)
    | entry spec source => rw [hs] at hkind; cases hkind
    | removed first =>
      cases (h.removalAt?_eq_none hopen).symm.trans (removalAt?_eq_some_iff.2 ⟨draft, hfind, hs⟩)

/-- The first declaration at a path is an adjustment, and it is accepted. -/
structure IsFirstAdjustment (strictness : Strictness) (ds : List Declaration) (p : TargetPath) (d : Declaration) :
    Prop where
  path : d.path = p
  adjusts : d.entry? = none ∧ ¬d.IsRemoval
  accepted : ∃ before after, ds = before ++ d :: after ∧ (∀ d' ∈ before, d'.path ≠ p) ∧
    (((new strictness).addEach before).add d).2 = none

theorem add_fresh {d : Declaration} (hd : ¬d.IsRemoval) (hremoval : b.removal? d.path = none)
    (hfind : b.drafts.find? d.path = none) : (b.add d).2 = none := by
  have hmerged : ((b.draft d.path).merge b.strictness d.resource d.provenance).2 = .merged := by
    rw [draft, hfind]
    exact Draft.merge_fresh b.strictness b.seen d.resource d.provenance
  obtain ⟨hremoves, -⟩ | ⟨-, first, hremoved, -⟩ | ⟨-, -, heq⟩ := b.add_cases d
  · exact absurd hremoves hd
  · cases hremoval.symm.trans hremoved
  · rw [heq, merge_of_merged (Prod.ext rfl hmerged)]

theorem exists_isFirstAdjustment {p : TargetPath} {source : Provenance}
    (hopen : ¬IsRemoved ds p) (hkind : firstKind? ds p = none)
    (hsource : (ds.find? (·.path = p)).map (·.provenance) = some source) :
    ∃ d, IsFirstAdjustment strictness ds p d ∧ d.provenance = source := by
  obtain ⟨d, hd, hprovenance⟩ := Option.map_eq_some_iff.1 hsource
  obtain ⟨hpath, before, after, rfl, hbefore⟩ := List.find?_eq_some_iff_append.1 hd
  obtain rfl := of_decide_eq_true hpath
  have hearlier : ∀ d' ∈ before, d'.path ≠ d.path := by simpa using hbefore
  have hmem : d ∈ before ++ d :: after := by simp
  have hadjusts : d.entry? = none := by
    have hnone := List.findSome?_eq_none_iff.1 hkind d (List.mem_filter.2 ⟨hmem, hpath⟩)
    simpa using hnone
  have hremoval : ¬d.IsRemoval := fun hremoval => hopen ⟨d, hmem, hremoval, List.mem_cons_self⟩
  have hstill : ¬IsRemoved before d.path := by
    rintro ⟨d', hd', hremoved⟩
    exact hopen ⟨d', List.mem_append_left _ hd', hremoved⟩
  have hb := (Reachable.new strictness).addEach before
  have hfind : ((new strictness).addEach before).drafts.find? d.path = none := by
    rw [← Option.not_isSome_iff_eq_none, (remembers_addEach strictness before).isSome_iff hb.isOpen hstill]
    rintro ⟨d', hd', hpath'⟩
    exact hearlier d' hd' hpath'
  exact ⟨d, ⟨rfl, ⟨hadjusts, hremoval⟩, before, after, rfl, hearlier,
    add_fresh hremoval ((knows_addEach strictness before).removal?_eq_none hstill) hfind⟩, hprovenance⟩

/-! ## What is reported -/

/-- Where nothing is refused, it makes no difference whether one goes on after a conflict. -/
theorem addEach_of_addAll (h : b.addAll ds = .ok b') : b.addEach ds = b' := by
  induction ds generalizing b with
  | nil =>
    cases h
    rfl
  | cons d rest ih =>
    rw [addAll] at h
    split at h
    · rename_i next hadd
      have hrest := ih h
      rw [addEach, List.foldl_cons, hadd]
      exact hrest
    · cases h

theorem isReport_of_addAll (hadd : (new strictness).addAll ds = .ok b) : Drafts.IsReport b.drafts b.finish := by
  obtain rfl := addEach_of_addAll hadd
  exact (((knows_addEach strictness ds).isClear ((Reachable.new strictness).addEach ds)).finds_finish _).isReport

/-- What is known of finishing after some declarations. -/
structure IsFinished (strictness : Strictness) (ds : List Declaration) (b : Builder) : Prop where
  report : Drafts.IsReport b.drafts b.finish
  /-- An entry is of the kind of the first entry at its path, where nothing was removed. -/
  stands : ∀ p kind, (∃ spec source, Drafts.Stands b.drafts p spec source ∧ spec.kind = kind) ↔
    ¬IsRemoved ds p ∧ firstKind? ds p = some kind
  adjusted : ∀ p, Drafts.IsAdjusted b.drafts p ↔
    ¬IsRemoved ds p ∧ firstKind? ds p = none ∧ ∃ d ∈ ds, d.path = p
  /-- Adjustments that have nothing to adjust are blamed on the first of them. -/
  blamed : ∀ p source, b.finish = .error (.dangling (.unresolvedTarget p source)) →
    ∃ d, IsFirstAdjustment strictness ds p d ∧ d.provenance = source

/-- Whatever was declared, accepted or not: finishing fails exactly when an entry lies beneath something that is no
    directory, a requirement is not met or an adjustment has nothing to adjust, and it reports the first of these. -/
theorem addEach_isFinished (strictness : Strictness) (ds : List Declaration) :
    IsFinished strictness ds ((new strictness).addEach ds) := by
  have hknows := knows_addEach strictness ds
  have hb := (Reachable.new strictness).addEach ds
  have hremembers := remembers_addEach strictness ds
  have hreport := ((hknows.isClear hb).finds_finish ((new strictness).addEach ds).warnings).isReport
  refine ⟨hreport, fun p kind => hknows.stands_iff, fun p => hknows.isAdjusted_iff hb hremembers,
    fun p source hfinish => ?_⟩
  have hstray := hreport.unresolved p source hfinish
  obtain ⟨hopen, hkind, -⟩ := (hknows.isAdjusted_iff hb hremembers).1 hstray.stray.1
  exact exists_isFirstAdjustment hopen hkind ((hremembers.first hopen).symm.trans hstray.source)

/-- A pipe, a directory that is refused there, and adjustments of a file that nobody declares. -/
def orphaned : List Declaration :=
  [⟨⟨["lib", "cache"], by decide⟩, .entry (.bare .fifo), ⟨"cache", 0⟩, [], by decide, by decide⟩,
    ⟨⟨["lib", "cache"], by decide⟩, .entry (.bare .directory), ⟨"cache", 1⟩, [], by decide, by decide⟩,
    ⟨⟨["lib", "cache", "index"], by decide⟩, .permissions ⟨some ⟨0o600⟩, none, none⟩, ⟨"cache", 2⟩, [], by decide,
      by decide⟩,
    ⟨⟨["lib", "cache", "index"], by decide⟩, .permissions ⟨some ⟨0o640⟩, none, none⟩, ⟨"cache", 3⟩, [], by decide,
      by decide⟩]

/-- Nothing lies beneath the pipe, as only adjustments are declared there; the first of them is blamed, though the
    second is refused. -/
theorem orphaned_isFinished :
    ((new .strict).addEach orphaned).finish =
      .error (.dangling (.unresolvedTarget ⟨["lib", "cache", "index"], by decide⟩ ⟨"cache", 2⟩)) ∧
    (∀ p above, ¬Drafts.IsMisplaced ((new .strict).addEach orphaned).drafts p above) ∧
    (∀ p q, ¬Drafts.IsUnmet ((new .strict).addEach orphaned).drafts p q) ∧
    ∃ d, IsFirstAdjustment .strict orphaned ⟨["lib", "cache", "index"], by decide⟩ d ∧ d.provenance = ⟨"cache", 2⟩ := by
  have hfinish : ((new .strict).addEach orphaned).finish =
      .error (.dangling (.unresolvedTarget ⟨["lib", "cache", "index"], by decide⟩ ⟨"cache", 2⟩)) := by cbv
  have h := addEach_isFinished .strict orphaned
  obtain ⟨hplaced, hmet, -⟩ := h.report.unresolved_iff.1 ⟨_, _, hfinish⟩
  exact ⟨hfinish, hplaced, hmet, h.blamed _ _ hfinish⟩

end Builder

end Provision
