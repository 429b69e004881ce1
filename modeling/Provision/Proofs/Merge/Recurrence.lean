import Provision.Proofs.Merge.Finish
import Provision.Proofs.Merge.Repetition
import Provision.Proofs.Merge.Strictness

/-! # Declarations offered again

Declarations that were merged without a warning merge again, and what warns then is a removal above another removal:
the mark of the one beneath is counted among what the one above takes with it. Nothing else warns.

* `Builder.warnings_remove_eq_iff` — when a removal is silent; so a silent run never takes a draft away.
* `Builder.Repeats` — a builder that has taken in declarations so that it can take them in again; `Repeats.add` keeps it,
  `Repeats.again` and `Repeats.addAll_again` — they are taken in again.
* `Builder.finish_append_self` — finishing succeeds as it did.
* `Graph.build_repeated` — the statement; `Graph.cleared_warns` — two removals that warn when they are repeated.
-/

namespace Provision

/-! ## State -/

namespace Draft

variable {strictness : Strictness} {draft : Draft}

/-- What holds something is in a state that a removal cancels. -/
theorem Holds.hasState {resource : Resource} (h : draft.Holds strictness resource) : draft.hasState = true := by
  cases resource with
  | absent => exact h.elim
  | entry spec =>
    obtain ⟨existing, source, hs, -⟩ := h
    rw [Draft.hasState, hs]
  | permissions permissions =>
    rw [Draft.hasState, h.1]
    cases draft.standing <;> rfl
  | xattr xattr =>
    obtain ⟨value, hvalue, -⟩ := h
    obtain ⟨held, hfind, -⟩ := Option.map_eq_some_iff.1 hvalue
    have hne : draft.xattrs.isEmpty = false :=
      List.isEmpty_eq_false_iff.2 (List.ne_nil_of_mem (SortedMap.mem_entries_iff.2 hfind))
    rw [Draft.hasState, hne]
    cases draft.standing <;> simp

theorem hasState_contribute (draft : Draft) (d : Declaration) : (draft.contribute d).hasState = draft.hasState := by
  obtain ⟨requires, heq, -⟩ := draft.contribute_eq d
  rw [heq]
  rfl

/-- Where overriding is forbidden, nothing is overridden. -/
theorem merge_strict_ne_overrode (draft : Draft) (resource : Resource) (source : Provenance) (notice : Notice)
    (first : Provenance) : (draft.merge .strict resource source).2 ≠ .overrode notice first := by
  have h := draft.merge_tightened source resource
  generalize draft.merge .lenient resource source = lenient at h
  generalize draft.merge .strict resource source = strict at h
  cases h with
  | agreed calm => exact calm notice first
  | stopped isOverride first' => simp

end Draft

/-! ## Finishing again -/

namespace Builder

variable {strictness : Strictness} {b b' : Builder} {ds : List Declaration}

theorem alike_append_self (hadd : (new strictness).addAll ds = .ok b)
    (hadd' : (new strictness).addAll (ds ++ ds) = .ok b') : Drafts.Alike b.drafts b'.drafts := by
  have hreflects := reflects_of_addAll hadd
  have hreflects' := reflects_of_addAll hadd'
  obtain rfl := addEach_of_addAll hadd
  obtain rfl := addEach_of_addAll hadd'
  have hknows := knows_addEach strictness ds
  have hknows' := knows_addEach strictness (ds ++ ds)
  have hb := (Reachable.new strictness).addEach ds
  have hb' := (Reachable.new strictness).addEach (ds ++ ds)
  refine ⟨fun p kind => ?_, fun p => ?_, fun {p draft' q} hfind' hq => ?_⟩
  · rw [hknows'.stands_iff, hknows.stands_iff, isRemoved_append_self, firstKind?_append_self]
  · rw [hknows'.isAdjusted_iff hb' (remembers_addEach _ _), hknows.isAdjusted_iff hb (remembers_addEach _ _),
      isRemoved_append_self, firstKind?_append_self]
    simp only [List.mem_append, or_self]
  · obtain ⟨d, hd, hdq⟩ := ((hreflects'.draft hfind').1.requires q).1 hq
    have hd' := mem_fromRemoval_inForce_append_self.1 hd
    cases hfind : ((new strictness).addEach ds).drafts.find? p with
    | none =>
      rw [hreflects.none hfind] at hd'
      cases hd'
    | some draft => exact ⟨draft, rfl, ((hreflects.draft hfind).1.requires q).2 ⟨d, hd', hdq⟩⟩

/-- What is finished once is finished again when all is declared once more. -/
theorem finish_append_self (hadd : (new strictness).addAll ds = .ok b)
    (hadd' : (new strictness).addAll (ds ++ ds) = .ok b') {g : Graph} (hfinish : b.finish = .ok g) :
    ∃ g', b'.finish = .ok g' := by
  have halike := alike_append_self hadd hadd'
  obtain ⟨hplaced, hmet, hsettled⟩ := (isReport_of_addAll hadd).ok_iff.1 ⟨g, hfinish⟩
  exact (isReport_of_addAll hadd').ok_iff.2 ⟨fun p above hp => hplaced p above (halike.isMisplaced hp),
    fun p q hp => hmet p q (halike.isUnmet hp), fun p hp => hsettled p (halike.isStray hp)⟩

/-! ## Silent removals -/

/-- A removal is silent when there is nothing beneath it and nothing but a removal at its path. -/
theorem warnings_remove_eq_iff (b : Builder) (d : Declaration) : (b.remove d).warnings = b.warnings ↔
    (∀ p draft, b.drafts.find? p = some draft → d.path ∉ p.ancestors) ∧ (b.draft d.path).hasState = false := by
  have hkept : (withoutBeneath b.drafts d.path).size ≤ b.drafts.size := List.length_filter_le ..
  have hbeneath : (withoutBeneath b.drafts d.path).size = b.drafts.size ↔
      ∀ p draft, b.drafts.find? p = some draft → d.path ∉ p.ancestors := by
    refine List.length_filter_eq_length_iff.trans ⟨fun hall p draft hfind habove => ?_, fun hnone e he => ?_⟩
    · have hkeep : (!p.isBeneath d.path) = true := hall _ (SortedMap.mem_entries_iff.2 hfind)
      rw [TargetPath.isBeneath_iff.2 habove] at hkeep
      cases hkeep
    · have hnot := hnone e.1 e.2 (SortedMap.mem_entries_iff.1 he)
      rw [← TargetPath.isBeneath_iff, Bool.not_eq_true] at hnot
      exact Bool.not_eq_true' _ ▸ hnot
  rw [← hbeneath, remove]
  cases (b.draft d.path).hasState with
  | true => simp
  | false =>
    have hcount : b.drafts.size - (withoutBeneath b.drafts d.path).size = 0 ↔
        (withoutBeneath b.drafts d.path).size = b.drafts.size := by omega
    simp [hcount]

/-- Warnings that were recorded stay recorded. -/
theorem warnings_add (b : Builder) (d : Declaration) : ∃ more, (b.add d).1.warnings = b.warnings ++ more := by
  obtain ⟨-, heq⟩ | ⟨-, first, -, heq⟩ | ⟨-, -, heq⟩ := b.add_cases d
  · rw [heq]
    exact ⟨_, rfl⟩
  · rw [heq]
    exact ⟨[], (List.append_nil _).symm⟩
  · rw [heq]
    obtain ⟨draft, report, -, ⟨reason, first, -, hmerged⟩ | ⟨-, more, hmerged⟩⟩ := b.merge_cases d
    · rw [hmerged]
      exact ⟨[], (List.append_nil _).symm⟩
    · rw [hmerged]
      exact ⟨more, rfl⟩

theorem warnings_addAll {b b' : Builder} {ds : List Declaration} (h : b.addAll ds = .ok b') :
    ∃ more, b'.warnings = b.warnings ++ more := by
  induction ds generalizing b with
  | nil =>
    cases h
    exact ⟨[], (List.append_nil _).symm⟩
  | cons d rest ih =>
    obtain ⟨first, hfirst⟩ := b.warnings_add d
    rw [addAll] at h
    split at h
    · rename_i next hadd
      obtain ⟨more, hmore⟩ := ih h
      rw [hadd] at hfirst
      exact ⟨first ++ more, by rw [hmore, hfirst, List.append_assoc]⟩
    · cases h

/-! ## Taking in again -/

/-- A builder that has all that declarations say which remove nothing, and has nothing but marks where something was
    removed: it can take the declarations in again. -/
structure Repeats (b : Builder) (ds : List Declaration) : Prop where
  strict : b.strictness = .strict
  knows : b.Knows ds
  has : ∀ d ∈ ds, ¬d.IsRemoval →
    ¬IsRemoved ds d.path ∧ ∃ draft, b.drafts.find? d.path = some draft ∧ draft.Has .strict d
  spent : ∀ {p draft}, b.drafts.find? p = some draft → IsRemoved ds p → draft.hasState = false
  declared : ∀ {p draft}, b.drafts.find? p = some draft → ∃ d ∈ ds, d.path = p

theorem repeats_new : (new .strict).Repeats [] where
  strict := rfl
  knows := knows_new .strict
  has d hd := by cases hd
  spent h := by cases h
  declared h := by cases h

theorem draft_of_find? {b : Builder} {p : TargetPath} {draft : Draft} (h : b.drafts.find? p = some draft) :
    b.draft p = draft := by
  rw [Builder.draft, h]
  rfl

/-- Whether a warning is one of a removal that is above another. -/
def IsNested (ds : List Declaration) (w : Warning) : Prop :=
  ∃ d ∈ ds, ∃ below ∈ ds, d.IsRemoval ∧ below.IsRemoval ∧ d.path ∈ below.path.ancestors ∧
    ∃ count, w = ⟨d.path, .removalCancels count, [d.provenance]⟩

theorem IsNested.mono {ds ds' : List Declaration} {w : Warning} (h : IsNested ds w) (hsub : ds ⊆ ds') :
    IsNested ds' w := by
  obtain ⟨d, hd, below, hbelow, hnested⟩ := h
  exact ⟨d, hsub hd, below, hsub hbelow, hnested⟩

namespace Repeats

variable {b : Builder} {ds : List Declaration} {d : Declaration}

/-- A removal that covers nothing but removals leaves the rest as it was. -/
theorem remove (h : b.Repeats ds) (hd : d.IsRemoval)
    (hclear : ∀ d' ∈ ds, ¬d'.IsRemoval → d.path ∉ d'.path :: d'.path.ancestors) : (b.remove d).Repeats (ds ++ [d]) where
  strict := h.strict
  knows := h.knows.remove hd
  has d' hd' hremoval := by
    have hmem : d' ∈ ds := by
      rcases List.mem_append.1 hd' with hd' | hd'
      · exact hd'
      · exact absurd (List.mem_singleton.1 hd' ▸ hd) hremoval
    have hcover := hclear d' hmem hremoval
    obtain ⟨hopen, draft, hfind, hhas⟩ := h.has d' hmem hremoval
    obtain ⟨hne, habove⟩ := not_or.1 (List.mem_cons.not.1 hcover)
    refine ⟨fun hremoved => ?_, draft, ?_, hhas⟩
    · exact (isRemoved_concat.1 hremoved).elim hopen fun hmem => hcover hmem.2
    · rw [find?_remove, if_neg (Ne.symm hne), if_neg habove, hfind]
  spent {p draft} hfind hremoved := by
    rw [find?_remove] at hfind
    split at hfind
    · cases hfind
      rw [Draft.hasState_contribute]
      rfl
    · rename_i hne
      split at hfind
      · cases hfind
      · rename_i habove
        refine h.spent hfind ((isRemoved_concat.1 hremoved).resolve_right fun hmem => ?_)
        exact (List.mem_cons.1 hmem.2).elim (fun heq => hne heq.symm) habove
  declared {p draft} hfind := by
    rw [find?_remove] at hfind
    split at hfind
    · rename_i heq
      exact ⟨d, by simp, heq.symm⟩
    · split at hfind
      · cases hfind
      · obtain ⟨d', hd', hpath⟩ := h.declared hfind
        exact ⟨d', List.mem_append_left _ hd', hpath⟩

theorem insert (h : b.Repeats ds) (hd : ¬d.IsRemoval) (hopen : ¬IsRemoved ds d.path) {draft : Draft}
    {more : List Warning} (haccept : (b.draft d.path).accept? .strict d = some draft)
    (hknows : Knows { b with
      drafts := b.drafts.insert d.path draft
      warnings := b.warnings ++ more
      seen := b.seen + 1 } (ds ++ [d])) :
    Repeats { b with
      drafts := b.drafts.insert d.path draft
      warnings := b.warnings ++ more
      seen := b.seen + 1 } (ds ++ [d]) where
  strict := h.strict
  knows := hknows
  has d' hd' hremoval := by
    rw [isRemoved_concat_of_not_removal hd]
    by_cases hpath : d'.path = d.path
    · rw [hpath]
      refine ⟨hopen, draft, SortedMap.find?_insert_self .., ?_⟩
      rcases List.mem_append.1 hd' with hmem | hself
      · -- What the draft had of earlier declarations it still has.
        obtain ⟨-, earlier, hfind, hhas⟩ := h.has d' hmem hremoval
        rw [draft_of_find? (hpath ▸ hfind)] at haccept
        exact hhas.accept? hd haccept
      · rw [List.mem_singleton.1 hself]
        exact Draft.has_of_accept? hd haccept
    · have hmem : d' ∈ ds := by
        rcases List.mem_append.1 hd' with hd' | hd'
        · exact hd'
        · exact absurd (congrArg Declaration.path (List.mem_singleton.1 hd')) hpath
      obtain ⟨hstill, earlier, hfind, hhas⟩ := h.has d' hmem hremoval
      exact ⟨hstill, earlier, by rw [SortedMap.find?_insert_of_ne _ hpath, hfind], hhas⟩
  spent {p found} hfind hremoved := by
    rw [isRemoved_concat_of_not_removal hd] at hremoved
    have hne : p ≠ d.path := fun heq => hopen (heq ▸ hremoved)
    rw [SortedMap.find?_insert_of_ne _ hne] at hfind
    exact h.spent hfind hremoved
  declared {p found} hfind := by
    by_cases hp : p = d.path
    · exact ⟨d, by simp, hp.symm⟩
    · rw [SortedMap.find?_insert_of_ne _ hp] at hfind
      obtain ⟨d', hd', hpath⟩ := h.declared hfind
      exact ⟨d', List.mem_append_left _ hd', hpath⟩

theorem add (h : b.Repeats ds) (haccepted : (b.add d).2 = none)
    (hclear : d.IsRemoval → ∀ d' ∈ ds, ¬d'.IsRemoval → d.path ∉ d'.path :: d'.path.ancestors) :
    (b.add d).1.Repeats (ds ++ [d]) := by
  have hknows := h.knows.add d
  by_cases hd : d.IsRemoval
  · rw [b.add_of_removal hd]
    exact h.remove hd (hclear hd)
  · have hremoval : b.removal? d.path = none := by
      obtain ⟨hremoves, -⟩ | ⟨-, first, -, heq⟩ | ⟨-, hremoval, -⟩ := b.add_cases d
      · exact absurd hremoves hd
      · rw [heq] at haccepted
        cases haccepted
      · exact hremoval
    obtain ⟨draft, more, haccept, heq⟩ | ⟨-, conflict, hrefused⟩ := b.add_outcome hd hremoval
    · rw [heq] at hknows ⊢
      refine h.insert hd ?_ (h.strict ▸ haccept) hknows
      rw [← h.knows.removed, hremoval]
      simp
    · cases haccepted.symm.trans hrefused

/-- A declaration that was taken in is accepted again; if it warns, it is a removal above another. -/
theorem again (h : b.Repeats ds) (hd : d ∈ ds) : (b.add d).2 = none ∧ ((b.add d).1.warnings = b.warnings ∨
    ∃ w, IsNested ds w ∧ (b.add d).1.warnings = b.warnings ++ [w]) := by
  by_cases hremoval : d.IsRemoval
  · rw [b.add_of_removal hremoval]
    refine ⟨rfl, ?_⟩
    obtain hsilent | ⟨count, hwarnings⟩ := b.warnings_remove_cases d
    · exact .inl hsilent
    · have hspent : (b.draft d.path).hasState = false := by
        cases hfind : b.drafts.find? d.path with
        | none => rw [Builder.draft, hfind]; rfl
        | some draft =>
          rw [draft_of_find? hfind]
          exact h.spent hfind ⟨d, hd, hremoval, List.mem_cons_self⟩
      -- The draft at the path has nothing to cancel, so there is one beneath.
      have hloud : ¬(b.remove d).warnings = b.warnings := by simp [hwarnings]
      rw [warnings_remove_eq_iff, and_iff_left hspent] at hloud
      push Not at hloud
      obtain ⟨p, draft, hfind, habove⟩ := hloud
      obtain ⟨below, hbelow, rfl⟩ := h.declared hfind
      have hmark : below.IsRemoval := by
        by_contra hnot
        exact (h.has below hbelow hnot).1 ⟨d, hd, hremoval, List.mem_cons_of_mem _ habove⟩
      exact .inr ⟨_, ⟨d, hd, below, hbelow, hremoval, hmark, habove, count, rfl⟩, hwarnings⟩
  · obtain ⟨hopen, draft, hfind, hhas⟩ := h.has d hd hremoval
    have haccepted := hhas.holds.accepted d.provenance
    obtain ⟨hremoves, -⟩ | ⟨-, first, hremoved, -⟩ | ⟨-, -, heq⟩ := b.add_cases d
    · exact absurd hremoves hremoval
    · cases (h.knows.removal?_eq_none hopen).symm.trans hremoved
    · have hcalm := draft.merge_strict_ne_overrode d.resource d.provenance
      cases hmerge : draft.merge .strict d.resource d.provenance with
      | mk merged report =>
        rw [hmerge] at haccepted hcalm
        rw [← draft_of_find? hfind, ← h.strict] at hmerge
        cases report with
        | merged =>
          rw [heq, merge_of_merged hmerge]
          exact ⟨rfl, .inl rfl⟩
        | overrode notice first => exact absurd rfl (hcalm notice first)
        | refused reason first => exact absurd ⟨reason, first, rfl⟩ haccepted

theorem add_again (h : b.Repeats ds) (hd : d ∈ ds) : (b.add d).1.Repeats (ds ++ [d]) :=
  h.add (h.again hd).1 fun hremoval d' hd' hnot hcover =>
    (h.has d' hd' hnot).1 ⟨d, hd, hremoval, hcover⟩

theorem addAll_again {rest : List Declaration} (h : b.Repeats ds) (hrest : ∀ d ∈ rest, d ∈ ds)
    (hwarnings : ∀ w ∈ b.warnings, IsNested ds w) :
    ∃ b', b.addAll rest = .ok b' ∧ ∀ w ∈ b'.warnings, IsNested (ds ++ rest) w := by
  induction rest generalizing b ds with
  | nil => exact ⟨b, rfl, by simpa using hwarnings⟩
  | cons d rest ih =>
    have hd := hrest d List.mem_cons_self
    obtain ⟨haccepted, hnew⟩ := h.again hd
    have hmono : ∀ w, IsNested ds w → IsNested (ds ++ [d]) w := fun w hw => hw.mono (List.subset_append_left ..)
    have hnext : ∀ w ∈ (b.add d).1.warnings, IsNested (ds ++ [d]) w := by
      intro w hw
      obtain hsame | ⟨w', hw', hmore⟩ := hnew
      · exact hmono w (hwarnings w (hsame ▸ hw))
      · rw [hmore] at hw
        rcases List.mem_append.1 hw with hw | hw
        · exact hmono w (hwarnings w hw)
        · exact hmono w (List.mem_singleton.1 hw ▸ hw')
    obtain ⟨b', hadd, hb'⟩ := ih (h.add_again hd)
      (fun d' hd' => List.mem_append_left _ (hrest d' (List.mem_cons_of_mem _ hd'))) hnext
    refine ⟨b', ?_, ?_⟩
    · rw [addAll, show b.add d = ((b.add d).1, none) from Prod.ext rfl haccepted]
      exact hadd
    · rwa [List.append_assoc, List.singleton_append] at hb'

end Repeats

/-! ## Silent runs -/

section Silent

variable {b b' : Builder} {ds more : List Declaration} {d : Declaration}

theorem exists_addAll_append (h : b.addAll (ds ++ more) = .ok b') :
    ∃ between, b.addAll ds = .ok between ∧ between.addAll more = .ok b' := by
  rw [addAll_append] at h
  split at h
  · rename_i between hadd
    exact ⟨between, hadd, h⟩
  · cases h

theorem exists_addAll_cons (h : b.addAll (d :: more) = .ok b') :
    ∃ between, b.add d = (between, none) ∧ between.addAll more = .ok b' := by
  rw [addAll] at h
  split at h
  · rename_i between hadd
    exact ⟨between, hadd, h⟩
  · cases h

/-- What comes before silence is silent. -/
theorem silent_of_addAll (h : b.addAll ds = .ok b') (hsilent : b'.warnings = []) : b.warnings = [] := by
  obtain ⟨more, hmore⟩ := warnings_addAll h
  rw [hsilent] at hmore
  exact (List.append_eq_nil_iff.1 hmore.symm).1

/-- A declaration that is accepted in silence takes no draft away. -/
theorem kept_of_silent (hadd : b.add d = (b', none)) (hsilent : b'.warnings = b.warnings) :
    (b'.drafts.find? d.path).isSome ∧ ∀ p, (b.drafts.find? p).isSome → (b'.drafts.find? p).isSome := by
  by_cases hd : d.IsRemoval
  · rw [b.add_of_removal hd] at hadd
    cases hadd
    obtain ⟨hbeneath, -⟩ := (b.warnings_remove_eq_iff d).1 hsilent
    refine ⟨by rw [find?_remove, if_pos rfl]; rfl, fun p hp => ?_⟩
    obtain ⟨draft, hfind⟩ := Option.isSome_iff_exists.1 hp
    rw [find?_remove, if_neg (hbeneath p draft hfind)]
    split
    · rfl
    · exact hp
  · obtain ⟨hremoves, -⟩ | ⟨-, first, -, heq⟩ | ⟨-, -, heq⟩ := b.add_cases d
    · exact absurd hremoves hd
    · cases heq.symm.trans hadd
    · obtain ⟨-, hdrafts⟩ := merge_accepted (heq.symm.trans hadd)
      rw [hdrafts]
      refine ⟨by rw [SortedMap.find?_insert_self]; rfl, fun p hp => ?_⟩
      by_cases hne : p = d.path
      · rw [hne, SortedMap.find?_insert_self]
        rfl
      · rwa [SortedMap.find?_insert_of_ne _ hne]

/-- Declarations that are merged in silence can be taken in again, and each has its draft. -/
theorem repeats_of_silent (hadd : (new .strict).addAll ds = .ok b) (hsilent : b.warnings = []) :
    b.Repeats ds ∧ ∀ d ∈ ds, (b.drafts.find? d.path).isSome := by
  induction ds using List.reverseRecOn generalizing b with
  | nil =>
    cases hadd
    exact ⟨repeats_new, fun d hd => by cases hd⟩
  | append_singleton ds d ih =>
    obtain ⟨before, hbefore, hlast⟩ := exists_addAll_append hadd
    obtain ⟨after, hstep, hnil⟩ := exists_addAll_cons hlast
    cases hnil
    have hquiet := silent_of_addAll hlast hsilent
    obtain ⟨hrepeats, hfound⟩ := ih hbefore hquiet
    obtain ⟨hself, hkept⟩ := kept_of_silent hstep (hsilent.trans hquiet.symm)
    have hclear : d.IsRemoval → ∀ d' ∈ ds, ¬d'.IsRemoval → d.path ∉ d'.path :: d'.path.ancestors := by
      -- What it would cover has a draft with state, which a silent removal does not take.
      intro hd d' hd' hnot hcover
      obtain ⟨-, draft, hfind, hhas⟩ := hrepeats.has d' hd' hnot
      rw [before.add_of_removal hd] at hstep
      cases hstep
      obtain ⟨hbeneath, hspent⟩ := (before.warnings_remove_eq_iff d).1 (hsilent.trans hquiet.symm)
      rcases List.mem_cons.1 hcover with heq | habove
      · rw [heq, draft_of_find? hfind, hhas.holds.hasState] at hspent
        cases hspent
      · exact hbeneath _ draft hfind habove
    have hnext := hrepeats.add (congrArg Prod.snd hstep) hclear
    rw [hstep] at hnext
    refine ⟨hnext, fun d' hd' => ?_⟩
    rcases List.mem_append.1 hd' with hd' | hd'
    · exact hkept _ (hfound d' hd')
    · rwa [List.mem_singleton.1 hd']

/-- Declarations with a removal above another do not merge in silence twice. -/
theorem not_silent_of_nested (hadd : (new .strict).addAll (ds ++ ds) = .ok b) (hd : d ∈ ds) (hremoval : d.IsRemoval)
    {below : Declaration} (hbelow : below ∈ ds) (habove : d.path ∈ below.path.ancestors) : b.warnings ≠ [] := by
  intro hsilent
  obtain ⟨before, after, hsplit⟩ := List.append_of_mem hd
  have hsecond : ds ++ ds = (ds ++ before) ++ d :: after := by
    rw [List.append_assoc, ← hsplit]
  rw [hsecond] at hadd
  obtain ⟨b₁, hfirst, hrest⟩ := exists_addAll_append hadd
  obtain ⟨b₂, hstep, hlast⟩ := exists_addAll_cons hrest
  have hquiet₁ := silent_of_addAll hrest hsilent
  have hquiet₂ := silent_of_addAll hlast hsilent
  -- The draft of the one beneath is there when the one above is declared again.
  obtain ⟨-, hfound⟩ := repeats_of_silent hfirst hquiet₁
  obtain ⟨draft, hfind⟩ := Option.isSome_iff_exists.1 (hfound below (List.mem_append_left _ hbelow))
  rw [b₁.add_of_removal hremoval] at hstep
  cases hstep
  exact ((b₁.warnings_remove_eq_iff d).1 (hquiet₂.trans hquiet₁.symm)).1 _ draft hfind habove

end Silent

end Builder

/-! ## Graphs -/

namespace Graph

variable {ds : List Declaration} {g : Graph}

theorem warnings_of_finish {b : Builder} (h : b.finish = .ok g) : g.warnings = b.warnings := by
  rw [Builder.finish, Drafts.finish_warnings] at h
  cases hfinish : b.drafts.finish [] with
  | error e =>
    rw [hfinish] at h
    cases h
  | ok g' =>
    rw [hfinish] at h
    cases h
    rfl

/-- What was declared without a warning can be declared again; all that it warns of then are removals above others. -/
structure IsRepeated (ds : List Declaration) (g : Graph) : Prop where
  nested : ∀ w ∈ g.warnings, Builder.IsNested ds w
  silent_iff : g.warnings = [] ↔
    ∀ d ∈ ds, ∀ below ∈ ds, d.IsRemoval → below.IsRemoval → d.path ∉ below.path.ancestors

theorem build_strict_append_self (h : build .strict ds = .ok g) (hsilent : g.warnings = []) :
    ∃ g', build .strict (ds ++ ds) = .ok g' ∧ IsRepeated ds g' := by
  obtain ⟨b, hadd, hfinish⟩ := exists_addAll_of_build h
  have hquiet : b.warnings = [] := (warnings_of_finish hfinish).symm.trans hsilent
  obtain ⟨hrepeats, -⟩ := Builder.repeats_of_silent hadd hquiet
  obtain ⟨b', hagain, hnested⟩ := hrepeats.addAll_again (fun _ => id) (by simp [hquiet])
  have hadd' : (Builder.new .strict).addAll (ds ++ ds) = .ok b' := by
    rw [Builder.addAll_append, hadd]
    exact hagain
  obtain ⟨g', hfinish'⟩ := Builder.finish_append_self hadd hadd' hfinish
  have hwarnings := warnings_of_finish hfinish'
  have hnested' : ∀ w ∈ g'.warnings, Builder.IsNested ds w := fun w hw =>
    (hnested w (hwarnings ▸ hw)).mono (by simp)
  refine ⟨g', by rw [build, hadd']; exact hfinish', hnested', ?_, ?_⟩
  · intro hnil d hd below hbelow hremoval _ habove
    exact Builder.not_silent_of_nested hadd' hd hremoval hbelow habove (hwarnings ▸ hnil)
  · intro hflat
    refine List.eq_nil_iff_forall_not_mem.2 fun w hw => ?_
    obtain ⟨d, hd, below, hbelow, hremoval, hmark, habove, -⟩ := hnested' w hw
    exact hflat d hd below hbelow hremoval hmark habove

/-- Declarations that merge without a warning merge again when they are repeated, and then only a removal above another
    warns: there is no warning unless one is beneath the other. -/
theorem build_repeated {strictness : Strictness} (h : build strictness ds = .ok g) (hsilent : g.warnings = []) :
    ∃ g', build strictness (ds ++ ds) = .ok g' ∧ IsRepeated ds g' := by
  cases strictness with
  | strict => exact build_strict_append_self h hsilent
  | lenient =>
    -- Without overrides the rules come to the same, for the declarations and for their repetition.
    have hcalm : overrides ds = [] := by rw [overrides_of_build h, hsilent]; rfl
    obtain ⟨g', hbuild, hrepeated⟩ := build_strict_append_self ((build_of_overrides_eq_nil hcalm).trans h) hsilent
    refine ⟨g', ?_, hrepeated⟩
    cases hoverrides : overrides (ds ++ ds) with
    | nil => exact (build_of_overrides_eq_nil hoverrides).symm.trans hbuild
    | cons w more =>
      obtain ⟨conflict, herror, -⟩ := build_of_overrides hoverrides
      cases hbuild.symm.trans herror

/-- A directory with its mode, and something in it that is removed. -/
def furnished : List Declaration :=
  [⟨⟨["home"], by decide⟩, .entry (.bare .directory), ⟨"home", 0⟩, [], by decide, by decide⟩,
    ⟨⟨["home"], by decide⟩, .permissions ⟨some ⟨0o755⟩, none, none⟩, ⟨"home", 1⟩, [], by decide, by decide⟩,
    ⟨⟨["home", "old"], by decide⟩, .absent, ⟨"home", 2⟩, [], by decide, by decide⟩]

/-- The one removal stands alone, so nothing warns. -/
theorem furnished_repeated : ∃ g, build .lenient furnished = .ok g ∧ g.warnings = [] ∧
    ∃ g', build .lenient (furnished ++ furnished) = .ok g' ∧ g'.warnings = [] := by
  have hrun : (build .lenient furnished).toOption.map (·.warnings) = some [] := by cbv
  cases hbuild : build .lenient furnished with
  | error e => rw [hbuild] at hrun; cases hrun
  | ok g =>
    rw [hbuild] at hrun
    have hsilent : g.warnings = [] := Option.some.inj hrun
    obtain ⟨g', hbuild', hrepeated⟩ := build_repeated hbuild hsilent
    refine ⟨g, rfl, hsilent, g', hbuild', hrepeated.silent_iff.2 ?_⟩
    simp only [TargetPath.mem_ancestors_iff]
    decide

/-- A directory is removed, and then something in it. -/
def cleared : List Declaration :=
  [⟨⟨["home"], by decide⟩, .absent, ⟨"home", 0⟩, [], by decide, by decide⟩,
    ⟨⟨["home", "old"], by decide⟩, .absent, ⟨"home", 1⟩, [], by decide, by decide⟩]

/-- The first time nothing warns; the second time the directory is said to take something with it, though all that there
    is in it is the mark of the other removal. -/
theorem cleared_warns :
    (build .lenient cleared).toOption.map (·.warnings) = some [] ∧
    (build .lenient (cleared ++ cleared)).toOption.map (·.warnings) =
      some [⟨⟨["home"], by decide⟩, .removalCancels 1, [⟨"home", 0⟩]⟩] := by
  exact ⟨by cbv, by cbv⟩

end Graph

end Provision
