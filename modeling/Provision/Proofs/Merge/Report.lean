import Provision.Proofs.Merge.Ascent
import Provision.Proofs.Merge.Relabelling

/-! # What finishing reports

Finishing fails for one of three reasons, looked for in this order: an entry lies beneath something that is no
directory, a requirement is not met, an adjustment has nothing to adjust. Of each the first in path order is reported.

* `Drafts.IsMisplaced`, `Drafts.IsUnmet`, `Drafts.IsStray` — the three reasons, read off the drafts before directories
  are filled in.
* `Drafts.Finds` — what is found; `Drafts.IsClear.finds_finish` — finishing comes to that.
* `Drafts.IsReport` — the same, as what each result says and when it comes.
* `Drafts.Alike` — drafts for which there is no other reason to fail.
-/

namespace Provision

/-- The first among parts of a list: the first in the first part that has one. -/
theorem findSome?_flatMap {α β γ : Type} (l : List α) (parts : α → List β) (f : β → Option γ) :
    (l.flatMap parts).findSome? f = l.findSome? fun a => (parts a).findSome? f := by
  induction l with
  | nil => rfl
  | cons a rest ih =>
    rw [List.flatMap_cons, List.findSome?_append, ih, List.findSome?_cons]
    cases (parts a).findSome? f <;> rfl

namespace Drafts

open Progress

/-! ## Reading drafts -/

/-- Whether an entry stands at a path, as some declaration declared it. -/
def Stands (drafts : Drafts) (p : TargetPath) (spec : EntrySpec) (source : Provenance) : Prop :=
  ∃ draft, drafts.find? p = some draft ∧ draft.standing = .entry spec source

def HoldsEntry (drafts : Drafts) (p : TargetPath) : Prop := ∃ spec source, drafts.Stands p spec source

/-- Whether there are adjustments at a path and nothing else. -/
def IsAdjusted (drafts : Drafts) (p : TargetPath) : Prop :=
  ∃ draft, drafts.find? p = some draft ∧ draft.standing = .pending

/-- Whether an entry lies beneath an entry that is no directory. -/
def IsMisplaced (drafts : Drafts) (p above : TargetPath) : Prop :=
  drafts.HoldsEntry p ∧ above ∈ p.ancestors ∧
    ∃ spec source, drafts.Stands above spec source ∧ spec.kind ≠ .directory

/-- Whether something comes to be at a path: an entry, a directory above one, or the root that is adjusted. -/
def IsMade (drafts : Drafts) (p : TargetPath) : Prop :=
  drafts.HoldsEntry p ∨ IsNeeded drafts p ∨ p = .root ∧ drafts.IsAdjusted p

/-- Whether a path requires another at which nothing comes to be. -/
def IsUnmet (drafts : Drafts) (p required : TargetPath) : Prop :=
  ∃ draft, drafts.find? p = some draft ∧ required ∈ draft.requires.map (·.1) ∧ ¬drafts.IsMade required

/-- Whether adjustments have nothing to adjust. -/
def IsStray (drafts : Drafts) (p : TargetPath) : Prop :=
  drafts.IsAdjusted p ∧ p ≠ .root ∧ ¬IsNeeded drafts p

theorem isNeeded_iff_exists_holdsEntry {drafts : Drafts} {p : TargetPath} :
    IsNeeded drafts p ↔ ∃ q, drafts.HoldsEntry q ∧ p ∈ q.ancestors := by
  constructor
  · rintro ⟨q, draft, spec, source, hfind, hs, hp⟩
    exact ⟨q, ⟨spec, source, draft, hfind, hs⟩, hp⟩
  · rintro ⟨q, ⟨spec, source, draft, hfind, hs⟩, hp⟩
    exact ⟨q, draft, spec, source, hfind, hs, hp⟩

/-! ## Reports -/

/-- The conflict at the first path with an entry beneath something that is no directory, with the nearest such thing. -/
structure IsFirstMisplaced (drafts : Drafts) (c : Conflict) (above : TargetPath) (kind : Kind) : Prop where
  misplaced : drafts.IsMisplaced c.path above
  least : ∀ p q, drafts.IsMisplaced p q → TargetPath.order p c.path ≠ .lt
  nearest : ∀ q, drafts.IsMisplaced c.path q → q = above ∨ q ∈ above.ancestors
  reason : c.reason = .notADirectory above kind
  first : ∃ spec, drafts.Stands above spec c.first ∧ spec.kind = kind
  second : ∃ spec, drafts.Stands c.path spec c.second

/-- The first path with a requirement that is not met, and the first such requirement there. -/
structure IsFirstUnmet (drafts : Drafts) (p required : TargetPath) (source : Provenance) : Prop where
  earliest : ∃ draft before after, drafts.find? p = some draft ∧ draft.requires = before ++ (required, source) :: after ∧
    ¬drafts.IsMade required ∧ ∀ r ∈ before, drafts.IsMade r.1
  least : ∀ q r, drafts.IsUnmet q r → TargetPath.order q p ≠ .lt

/-- The first path with adjustments that have nothing to adjust, and the first of their declarations. -/
structure IsFirstStray (drafts : Drafts) (p : TargetPath) (source : Provenance) : Prop where
  stray : drafts.IsStray p
  least : ∀ q, drafts.IsStray q → TargetPath.order q p ≠ .lt
  source : (drafts.find? p).bind (·.provenance.head?) = some source

/-- What finishing comes to: each reason to fail is looked for when there is none of those before it. -/
inductive Finds (drafts : Drafts) : Except MergeError Graph → Prop
  | misplaced {c : Conflict} {above : TargetPath} {kind : Kind} (h : drafts.IsFirstMisplaced c above kind) :
      Finds drafts (.error (.conflict c))
  | unmet {p required : TargetPath} {source : Provenance} (placed : ∀ p q, ¬drafts.IsMisplaced p q)
      (h : drafts.IsFirstUnmet p required source) :
      Finds drafts (.error (.dangling (.missingDependency p required source)))
  | stray {p : TargetPath} {source : Provenance} (placed : ∀ p q, ¬drafts.IsMisplaced p q)
      (met : ∀ p q, ¬drafts.IsUnmet p q) (h : drafts.IsFirstStray p source) :
      Finds drafts (.error (.dangling (.unresolvedTarget p source)))
  | built {g : Graph} (placed : ∀ p q, ¬drafts.IsMisplaced p q) (met : ∀ p q, ¬drafts.IsUnmet p q)
      (settled : ∀ p, ¬drafts.IsStray p) : Finds drafts (.ok g)

/-! ## The hierarchy -/

/-- Drafts in which nothing is removed above an entry. -/
structure IsClear (drafts : Drafts) : Prop where
  isOpen : drafts.IsOpen
  clear : ∀ {p q draft}, drafts.HoldsEntry p → q ∈ p.ancestors → drafts.find? q = some draft →
    ∀ source, draft.standing ≠ .removed source

variable {drafts filled : Drafts}

theorem conflict?_of_stands {c : Climber} {q : TargetPath} {spec : EntrySpec} {first : Provenance}
    (h : drafts.Stands q spec first) (hkind : spec.kind ≠ .directory) :
    conflict? drafts ⟨c, q⟩ = some ⟨c.path, first, c.declaredBy, .notADirectory q spec.kind⟩ := by
  obtain ⟨draft, hfind, hs⟩ := h
  simp [conflict?, hfind, hs, hkind]

/-- Where nothing is removed above it, an ascent only conflicts with an entry that is no directory. -/
theorem IsClear.of_conflict? (h : drafts.IsClear) {climber : Climber} (hclimber : climber ∈ drafts.climbers)
    {q : TargetPath} (hq : q ∈ climber.path.ancestors) {c : Conflict} (hc : conflict? drafts ⟨climber, q⟩ = some c) :
    ∃ spec first, drafts.Stands q spec first ∧ spec.kind ≠ .directory ∧
      c = ⟨climber.path, first, climber.declaredBy, .notADirectory q spec.kind⟩ := by
  obtain ⟨entry, existing, hentry, hstanding⟩ := entry_of_mem_climbers hclimber
  have hholds : drafts.HoldsEntry climber.path := ⟨existing, _, entry, hentry, hstanding⟩
  rw [conflict?] at hc
  cases hfind : drafts.find? q with
  | none =>
    rw [hfind] at hc
    cases hc
  | some draft =>
    simp only [hfind, Option.map_some] at hc
    cases hs : draft.standing with
    | pending =>
      rw [hs] at hc
      cases hc
    | implicit =>
      rw [hs] at hc
      cases hc
    | removed first => exact absurd hs (h.clear hholds hq hfind first)
    | entry spec first =>
      simp only [hs] at hc
      split at hc
      · cases hc
      · rename_i hkind
        cases hc
        exact ⟨spec, first, ⟨draft, hfind, hs⟩, hkind, rfl⟩

/-- An entry that is misplaced meets a conflict on its way up. -/
theorem exists_conflict?_of_isMisplaced {p q : TargetPath} (h : drafts.IsMisplaced p q) {c : Climber}
    (hc : c.path = p) : (ascentsOf c).findSome? (conflict? drafts) ≠ none := by
  obtain ⟨-, hq, spec, source, hstands, hkind⟩ := h
  intro hnone
  have hfree := List.findSome?_eq_none_iff.1 hnone ⟨c, q⟩ (List.mem_map_of_mem (hc ▸ hq))
  cases (conflict?_of_stands hstands hkind).symm.trans hfree

theorem ascents_eq_none_iff (h : drafts.IsClear) :
    (ascents drafts).findSome? (conflict? drafts) = none ↔ ∀ p q, ¬drafts.IsMisplaced p q := by
  rw [ascents, findSome?_flatMap, List.findSome?_eq_none_iff]
  constructor
  · intro hnone p q hmisplaced
    obtain ⟨spec, source, draft, hfind, hs⟩ := hmisplaced.1
    obtain ⟨c, hc, hpath⟩ := exists_climber hfind hs
    exact exists_conflict?_of_isMisplaced hmisplaced hpath (hnone c hc)
  · intro hplaced c hc
    refine List.findSome?_eq_none_iff.2 fun a ha => ?_
    obtain ⟨q, hq, rfl⟩ := List.mem_map.1 ha
    cases hconflict : conflict? drafts ⟨c, q⟩ with
    | none => rfl
    | some conflict =>
      obtain ⟨spec, first, hstands, hkind, -⟩ := h.of_conflict? hc hq hconflict
      obtain ⟨draft, existing, hfind, hs⟩ := entry_of_mem_climbers hc
      exact absurd ⟨⟨existing, _, draft, hfind, hs⟩, hq, spec, first, hstands, hkind⟩ (hplaced c.path q)

theorem exists_isFirstMisplaced (h : drafts.IsClear) {c : Conflict}
    (hc : (ascents drafts).findSome? (conflict? drafts) = some c) :
    ∃ above kind, drafts.IsFirstMisplaced c above kind := by
  rw [ascents, findSome?_flatMap] at hc
  obtain ⟨before, climber, after, hclimbers, hfirst, hbefore⟩ := List.findSome?_eq_some_iff.1 hc
  rw [ascentsOf, List.findSome?_map] at hfirst
  obtain ⟨near, above, far, hancestors, hconflict, hnear⟩ := List.findSome?_eq_some_iff.1 hfirst
  have hmem : climber ∈ drafts.climbers := by simp [hclimbers]
  have habove : above ∈ climber.path.ancestors := by simp [hancestors]
  obtain ⟨draft, existing, hfind, hs⟩ := entry_of_mem_climbers hmem
  obtain ⟨spec, first, hstands, hkind, rfl⟩ := h.of_conflict? hmem habove hconflict
  refine ⟨above, spec.kind, ⟨⟨existing, _, draft, hfind, hs⟩, habove, spec, first, hstands, hkind⟩,
    fun p q hmisplaced hlt => ?least, fun q hmisplaced => ?nearest, rfl, ⟨spec, hstands, rfl⟩,
    ⟨existing, draft, hfind, hs⟩⟩
  case least =>
    -- Entries that come earlier in path order have been looked at before.
    obtain ⟨spec', source', draft', hfind', hs'⟩ := hmisplaced.1
    obtain ⟨c, hmem', rfl⟩ := exists_climber hfind' hs'
    have hsorted := drafts.climbers_pairwise
    rw [hclimbers] at hmem' hsorted
    rcases List.mem_append.1 hmem' with hc | hc
    · exact exists_conflict?_of_isMisplaced hmisplaced rfl (hbefore c hc)
    rcases List.mem_cons.1 hc with rfl | hc
    · exact SortedMap.ne_of_lt hlt rfl
    · have hgt := (List.pairwise_cons.1 (List.pairwise_append.1 hsorted).2.1).1 c hc
      cases (Std.OrientedCmp.gt_of_lt hlt).symm.trans hgt
  case nearest =>
    obtain ⟨-, hq, spec', source', hstands', hkind'⟩ := hmisplaced
    rw [hancestors] at hq
    rcases List.mem_append.1 hq with hq | hq
    · cases (conflict?_of_stands hstands' hkind').symm.trans (hnear q hq)
    rcases List.mem_cons.1 hq with rfl | hq
    · exact .inl rfl
    · exact .inr (TargetPath.ancestors_tail hancestors ▸ hq)

/-! ## Requirements -/

/-- Filling in directories changes what is known about the existence of a path, and nothing else. -/
theorem Filled.exists_find? (h : Filled drafts filled) {p : TargetPath} {draft : Draft}
    (hfind : drafts.find? p = some draft) : ∃ standing, filled.find? p = some { draft with standing } := by
  by_cases hs : draft.standing = .pending
  · by_cases hraised : IsNeeded drafts p ∨ p = .root
    · exact ⟨_, h.raised hfind hs hraised⟩
    · exact ⟨_, h.left hfind hs hraised⟩
  · exact ⟨_, h.kept hfind hs⟩

/-- What filling in adds requires nothing. -/
theorem Filled.requires (h : Filled drafts filled) {p : TargetPath} {draft : Draft}
    (hfind : filled.find? p = some draft) (hne : draft.requires ≠ []) :
    ∃ before, drafts.find? p = some before ∧ before.requires = draft.requires := by
  cases hbefore : drafts.find? p with
  | some before =>
    obtain ⟨standing, hfilled⟩ := h.exists_find? hbefore
    cases hfind.symm.trans hfilled
    exact ⟨before, rfl, rfl⟩
  | none =>
    by_cases hneeded : IsNeeded drafts p
    · obtain ⟨order, hadded⟩ := h.added hbefore hneeded
      cases hfind.symm.trans hadded
      exact absurd rfl hne
    · cases hfind.symm.trans (h.none hbefore hneeded)

theorem Filled.creates_iff (h : Filled drafts filled) (hclear : drafts.IsClear) (p : TargetPath) :
    filled.creates p = true ↔ drafts.IsMade p := by
  rw [creates]
  cases hfind : drafts.find? p with
  | none =>
    have hbare : ¬drafts.HoldsEntry p ∧ ¬drafts.IsAdjusted p := by
      constructor
      · rintro ⟨spec, source, draft, hdraft, -⟩
        cases hfind.symm.trans hdraft
      · rintro ⟨draft, hdraft, -⟩
        cases hfind.symm.trans hdraft
    by_cases hneeded : IsNeeded drafts p
    · obtain ⟨order, hadded⟩ := h.added hfind hneeded
      rw [hadded]
      exact iff_of_true rfl (.inr (.inl hneeded))
    · rw [h.none hfind hneeded]
      refine iff_of_false (by simp) ?_
      rintro (hentry | hnot | ⟨-, hadjusted⟩)
      · exact hbare.1 hentry
      · exact hneeded hnot
      · exact hbare.2 hadjusted
  | some draft =>
    cases hs : draft.standing with
    | implicit => exact absurd hs (hclear.isOpen.plain hfind)
    | entry spec source =>
      rw [h.kept hfind (by simp [hs])]
      exact iff_of_true (by simp [Draft.isPresent, hs]) (.inl ⟨spec, source, draft, hfind, hs⟩)
    | removed source =>
      rw [h.kept hfind (by simp [hs])]
      refine iff_of_false (by simp [Draft.isPresent, hs]) ?_
      rintro (⟨spec, source', draft', hdraft, hs'⟩ | hneeded | ⟨-, draft', hdraft, hs'⟩)
      · cases hfind.symm.trans hdraft
        cases hs.symm.trans hs'
      · obtain ⟨q, hentry, hp⟩ := isNeeded_iff_exists_holdsEntry.1 hneeded
        exact hclear.clear hentry hp hfind source hs
      · cases hfind.symm.trans hdraft
        cases hs.symm.trans hs'
    | pending =>
      by_cases hraised : IsNeeded drafts p ∨ p = .root
      · rw [h.raised hfind hs hraised]
        exact iff_of_true rfl (.inr (hraised.imp_right fun hroot => ⟨hroot, draft, hfind, hs⟩))
      · rw [h.left hfind hs hraised]
        refine iff_of_false (by simp [Draft.isPresent, hs]) ?_
        rintro (⟨spec, source, draft', hdraft, hs'⟩ | hneeded | ⟨hroot, -⟩)
        · cases hfind.symm.trans hdraft
          cases hs.symm.trans hs'
        · exact hraised (.inl hneeded)
        · exact hraised (.inr hroot)

/-- The requirements of a path that are not met, once directories are filled in. -/
theorem Filled.findSome?_requires_eq_none_iff (h : Filled drafts filled) (hclear : drafts.IsClear) {p : TargetPath}
    {requires : List (TargetPath × Provenance)} :
    requires.findSome? (fun (required, source) =>
        if filled.creates required then Option.none else some (Dangling.missingDependency p required source)) = Option.none ↔
      ∀ r ∈ requires, drafts.IsMade r.1 := by
  rw [List.findSome?_eq_none_iff]
  refine forall₂_congr fun r _ => ?_
  by_cases hcreated : filled.creates r.1 = true <;> simp [← h.creates_iff hclear, hcreated]

theorem Filled.missing?_eq_none_iff (h : Filled drafts filled) (hclear : drafts.IsClear) :
    filled.missing? = Option.none ↔ ∀ p q, ¬drafts.IsUnmet p q := by
  rw [missing?, SortedMap.findSome?_entries_eq_none_iff]
  simp only [h.findSome?_requires_eq_none_iff hclear]
  constructor
  · rintro hmet p q ⟨draft, hfind, hq, hnot⟩
    obtain ⟨r, hr, rfl⟩ := List.mem_map.1 hq
    obtain ⟨standing, hfilled⟩ := h.exists_find? hfind
    exact hnot (hmet p _ hfilled r hr)
  · intro hmet p draft hfind r hr
    obtain ⟨before, hbefore, hrequires⟩ := h.requires hfind (List.ne_nil_of_mem hr)
    by_contra hnot
    exact hmet p r.1 ⟨before, hbefore, List.mem_map_of_mem (hrequires ▸ hr), hnot⟩

theorem Filled.isFirstUnmet (h : Filled drafts filled) (hclear : drafts.IsClear) {e : Dangling}
    (hmissing : filled.missing? = some e) :
    ∃ p required source, e = .missingDependency p required source ∧ drafts.IsFirstUnmet p required source := by
  obtain ⟨p, draft, hfind, hfirst, hleast⟩ := SortedMap.findSome?_entries_eq_some hmissing
  obtain ⟨before, ⟨required, source⟩, after, hsplit, hunmet, hbefore⟩ := List.findSome?_eq_some_iff.1 hfirst
  simp only at hunmet
  split at hunmet
  · cases hunmet
  · rename_i hcreated
    cases hunmet
    obtain ⟨own, hown, hrequires⟩ := h.requires hfind (by simp [hsplit])
    refine ⟨p, required, source, rfl, ⟨own, before, after, hown, hrequires.trans hsplit, ?_, ?_⟩, ?_⟩
    · rwa [← h.creates_iff hclear]
    · exact (h.findSome?_requires_eq_none_iff hclear).1 (List.findSome?_eq_none_iff.2 hbefore)
    · rintro q r ⟨draft', hdraft', hr, hnot⟩ hlt
      obtain ⟨r', hr', rfl⟩ := List.mem_map.1 hr
      obtain ⟨standing, hfilled⟩ := h.exists_find? hdraft'
      exact hnot ((h.findSome?_requires_eq_none_iff hclear).1 (hleast q _ hfilled hlt) r' hr')

/-! ## Adjustments -/

/-- What is said of a draft that comes to nothing. -/
def stray? (p : TargetPath) (draft : Draft) : Option Dangling :=
  if draft.standing = .pending then some (.unresolvedTarget p (draft.provenance.headD ⟨"", draft.order⟩)) else none

theorem node_eq (drafts : Drafts) (p : TargetPath) (draft : Draft) :
    (∃ e, drafts.node p draft = .error e ∧ stray? p draft = some e) ∨
      ∃ n, drafts.node p draft = .ok n ∧ stray? p draft = none := by
  rw [node, Draft.state?, stray?]
  cases draft.standing <;> simp

/-- The nodes of a list of drafts, or what is said of the first that comes to nothing. -/
theorem nodes_outcome (drafts : Drafts) (l : List (TargetPath × Draft)) :
    match l.findSome? fun (p, draft) => stray? p draft with
    | some e => (drafts.nodes l).map (·.1) = .error e
    | none => ∃ ns, (drafts.nodes l).map (·.1) = .ok ns := by
  induction l with
  | nil => exact ⟨[], rfl⟩
  | cons head rest ih =>
    obtain ⟨p, draft⟩ := head
    rw [nodes_cons, List.findSome?_cons]
    obtain ⟨e, hnode, hstray⟩ | ⟨n, hnode, hstray⟩ := node_eq drafts p draft
    · rw [hnode]
      simp [hstray]
    · rw [hnode]
      simp only [hstray]
      cases hrest : rest.findSome? fun (p, draft) => stray? p draft with
      | some e =>
        simp only [hrest] at ih
        rw [ih]
      | none =>
        simp only [hrest] at ih
        obtain ⟨ns, hns⟩ := ih
        rw [hns]
        exact ⟨n :: ns, rfl⟩

theorem Filled.isAdjusted_iff (h : Filled drafts filled) {p : TargetPath} :
    (∃ draft, filled.find? p = some draft ∧ draft.standing = .pending) ↔ drafts.IsStray p := by
  constructor
  · rintro ⟨draft, hfind, hs⟩
    have hbefore := h.find?_of_pending hfind hs
    have hleft : ¬(IsNeeded drafts p ∨ p = .root) := by
      intro hraised
      have hstanding := congrArg Draft.standing (Option.some.inj (hfind.symm.trans (h.raised hbefore hs hraised)))
      cases hs.symm.trans hstanding
    exact ⟨⟨draft, hbefore, hs⟩, not_or.1 hleft |>.2, not_or.1 hleft |>.1⟩
  · rintro ⟨⟨draft, hfind, hs⟩, hroot, hneeded⟩
    exact ⟨draft, h.left hfind hs (not_or.2 ⟨hneeded, hroot⟩), hs⟩

theorem Filled.stray?_eq_none_iff (h : Filled drafts filled) :
    filled.entries.findSome? (fun (p, draft) => stray? p draft) = Option.none ↔ ∀ p, ¬drafts.IsStray p := by
  rw [SortedMap.findSome?_entries_eq_none_iff]
  simp only [← h.isAdjusted_iff, stray?]
  constructor
  · rintro hnone p ⟨draft, hfind, hs⟩
    simpa [hs] using hnone p draft hfind
  · intro hsettled p draft hfind
    exact if_neg fun hs => hsettled p ⟨draft, hfind, hs⟩

theorem Filled.isFirstStray (h : Filled drafts filled) (hopen : drafts.IsOpen) {e : Dangling}
    (hstray : filled.entries.findSome? (fun (p, draft) => stray? p draft) = some e) :
    ∃ p source, e = .unresolvedTarget p source ∧ drafts.IsFirstStray p source := by
  obtain ⟨p, draft, hfind, hfirst, hleast⟩ := SortedMap.findSome?_entries_eq_some hstray
  simp only [stray?] at hfirst hleast
  split at hfirst
  · rename_i hs
    cases hfirst
    have hbefore := h.find?_of_pending hfind hs
    obtain ⟨first, more, hprovenance⟩ := List.exists_cons_of_ne_nil (hopen.named hbefore)
    refine ⟨p, _, rfl, h.isAdjusted_iff.1 ⟨draft, hfind, hs⟩, fun q hq hlt => ?_, ?_⟩
    · obtain ⟨draft', hfind', hs'⟩ := h.isAdjusted_iff.2 hq
      simpa [hs'] using hleast q draft' hfind' hlt
    · simp [hbefore, hprovenance]
  · cases hfirst

/-! ## Finishing -/

/-- Finishing reports the first reason to fail, and without one it succeeds. -/
theorem IsClear.finds_finish (h : drafts.IsClear) (warnings : List Warning) :
    drafts.Finds (drafts.finish warnings) := by
  have houtcome := filledIn_outcome h.isOpen.plain
  rw [finish]
  cases hconflict : (ascents drafts).findSome? (conflict? drafts) with
  | some c =>
    simp only [hconflict] at houtcome
    obtain ⟨above, kind, hfirst⟩ := exists_isFirstMisplaced h hconflict
    rw [houtcome]
    exact .misplaced hfirst
  | none =>
    simp only [hconflict] at houtcome
    obtain ⟨filled, hok, hfilled⟩ := houtcome
    have hplaced := (ascents_eq_none_iff h).1 hconflict
    rw [hok]
    simp only
    cases hmissing : filled.missing? with
    | some e =>
      obtain ⟨p, required, source, rfl, hfirst⟩ := hfilled.isFirstUnmet h hmissing
      rw [graph_eq_error_iff.2 (.inl hmissing)]
      exact .unmet hplaced hfirst
    | none =>
      have hmet := (hfilled.missing?_eq_none_iff h).1 hmissing
      have hnodes := nodes_outcome filled filled.entries
      cases hstray : filled.entries.findSome? fun (p, draft) => stray? p draft with
      | some e =>
        rw [hstray] at hnodes
        obtain ⟨p, source, rfl, hfirst⟩ := hfilled.isFirstStray h.isOpen hstray
        rw [graph_eq_error_iff.2 (.inr ⟨hmissing, hnodes⟩)]
        exact .stray hplaced hmet hfirst
      | none =>
        rw [hstray] at hnodes
        cases hgraph : filled.graph warnings with
        | ok g => exact .built hplaced hmet (hfilled.stray?_eq_none_iff.1 hstray)
        | error e =>
          obtain ⟨ns, hns⟩ := hnodes
          rcases graph_eq_error_iff.1 hgraph with he | ⟨-, he⟩
          · cases hmissing.symm.trans he
          · cases hns.symm.trans he

/-- What finishing reports says for which reason it fails, if it does. -/
structure IsReport (drafts : Drafts) (result : Except MergeError Graph) : Prop where
  /-- An entry beneath something that is no directory comes before all else. -/
  conflict_iff : (∃ c, result = .error (.conflict c)) ↔ ∃ p above, drafts.IsMisplaced p above
  conflict : ∀ c, result = .error (.conflict c) → ∃ above kind, drafts.IsFirstMisplaced c above kind
  /-- A requirement that is not met comes next. -/
  missing_iff : (∃ p q source, result = .error (.dangling (.missingDependency p q source))) ↔
    (∀ p above, ¬drafts.IsMisplaced p above) ∧ ∃ p q, drafts.IsUnmet p q
  missing : ∀ p q source, result = .error (.dangling (.missingDependency p q source)) →
    drafts.IsFirstUnmet p q source
  /-- Adjustments that have nothing to adjust come last. -/
  unresolved_iff : (∃ p source, result = .error (.dangling (.unresolvedTarget p source))) ↔
    (∀ p above, ¬drafts.IsMisplaced p above) ∧ (∀ p q, ¬drafts.IsUnmet p q) ∧ ∃ p, drafts.IsStray p
  unresolved : ∀ p source, result = .error (.dangling (.unresolvedTarget p source)) →
    drafts.IsFirstStray p source
  /-- There is no other reason. -/
  ok_iff : (∃ g, result = .ok g) ↔
    (∀ p above, ¬drafts.IsMisplaced p above) ∧ (∀ p q, ¬drafts.IsUnmet p q) ∧ ∀ p, ¬drafts.IsStray p

theorem IsFirstUnmet.isUnmet {p required : TargetPath} {source : Provenance}
    (h : drafts.IsFirstUnmet p required source) : drafts.IsUnmet p required := by
  obtain ⟨draft, before, after, hfind, hrequires, hnot, -⟩ := h.earliest
  exact ⟨draft, hfind, by simp [hrequires], hnot⟩

/-- Each report excludes the others. -/
theorem Finds.isReport {result : Except MergeError Graph} (h : drafts.Finds result) : drafts.IsReport result := by
  cases h with
  | @misplaced c above kind h =>
    refine ⟨iff_of_true ⟨c, rfl⟩ ⟨_, _, h.misplaced⟩, ?_, iff_of_false (by simp) fun hnot => hnot.1 _ _ h.misplaced,
      by simp, iff_of_false (by simp) fun hnot => hnot.1 _ _ h.misplaced, by simp,
      iff_of_false (by simp) fun hnot => hnot.1 _ _ h.misplaced⟩
    rintro _ ⟨⟩
    exact ⟨above, kind, h⟩
  | unmet placed h =>
    refine ⟨iff_of_false (by simp) fun ⟨p, q, hnot⟩ => placed p q hnot, by simp,
      iff_of_true ⟨_, _, _, rfl⟩ ⟨placed, _, _, h.isUnmet⟩, ?_,
      iff_of_false (by simp) fun hnot => hnot.2.1 _ _ h.isUnmet, by simp,
      iff_of_false (by simp) fun hnot => hnot.2.1 _ _ h.isUnmet⟩
    rintro _ _ _ ⟨⟩
    exact h
  | stray placed met h =>
    refine ⟨iff_of_false (by simp) fun ⟨p, q, hnot⟩ => placed p q hnot, by simp,
      iff_of_false (by simp) fun ⟨_, p, q, hnot⟩ => met p q hnot, by simp,
      iff_of_true ⟨_, _, rfl⟩ ⟨placed, met, _, h.stray⟩, ?_,
      iff_of_false (by simp) fun hnot => hnot.2.2 _ h.stray⟩
    rintro _ _ ⟨⟩
    exact h
  | @built g placed met settled =>
    exact ⟨iff_of_false (by simp) fun ⟨p, q, hnot⟩ => placed p q hnot, by simp,
      iff_of_false (by simp) fun ⟨_, p, q, hnot⟩ => met p q hnot, by simp,
      iff_of_false (by simp) fun ⟨_, _, p, hnot⟩ => settled p hnot, by simp,
      iff_of_true ⟨g, rfl⟩ ⟨placed, met, settled⟩⟩

/-! ## Drafts that are alike -/

/-- The second drafts have the entries and the adjustments of the first, and require no more. -/
structure Alike (drafts drafts' : Drafts) : Prop where
  stands : ∀ p kind, (∃ spec source, drafts'.Stands p spec source ∧ spec.kind = kind) ↔
    ∃ spec source, drafts.Stands p spec source ∧ spec.kind = kind
  adjusted : ∀ p, drafts'.IsAdjusted p ↔ drafts.IsAdjusted p
  requires : ∀ {p draft' q}, drafts'.find? p = some draft' → q ∈ draft'.requires.map (·.1) →
    ∃ draft, drafts.find? p = some draft ∧ q ∈ draft.requires.map (·.1)

namespace Alike

variable {drafts' : Drafts}

theorem holdsEntry_iff (h : drafts.Alike drafts') (p : TargetPath) : drafts'.HoldsEntry p ↔ drafts.HoldsEntry p := by
  constructor
  · rintro ⟨spec, source, hs⟩
    obtain ⟨spec', source', hs', -⟩ := (h.stands p spec.kind).1 ⟨spec, source, hs, rfl⟩
    exact ⟨spec', source', hs'⟩
  · rintro ⟨spec, source, hs⟩
    obtain ⟨spec', source', hs', -⟩ := (h.stands p spec.kind).2 ⟨spec, source, hs, rfl⟩
    exact ⟨spec', source', hs'⟩

theorem isNeeded_iff (h : drafts.Alike drafts') (p : TargetPath) : IsNeeded drafts' p ↔ IsNeeded drafts p := by
  rw [isNeeded_iff_exists_holdsEntry, isNeeded_iff_exists_holdsEntry]
  exact exists_congr fun q => and_congr_left fun _ => h.holdsEntry_iff q

theorem isMisplaced (h : drafts.Alike drafts') {p above : TargetPath} (hp : drafts'.IsMisplaced p above) :
    drafts.IsMisplaced p above := by
  obtain ⟨hentry, habove, spec, source, hs, hkind⟩ := hp
  obtain ⟨spec', source', hs', hsame⟩ := (h.stands above spec.kind).1 ⟨spec, source, hs, rfl⟩
  exact ⟨(h.holdsEntry_iff p).1 hentry, habove, spec', source', hs', by rwa [hsame]⟩

theorem isMade_iff (h : drafts.Alike drafts') (p : TargetPath) : drafts'.IsMade p ↔ drafts.IsMade p :=
  or_congr (h.holdsEntry_iff p) (or_congr (h.isNeeded_iff p) (and_congr_right fun _ => h.adjusted p))

theorem isUnmet (h : drafts.Alike drafts') {p q : TargetPath} (hp : drafts'.IsUnmet p q) : drafts.IsUnmet p q := by
  obtain ⟨draft', hfind', hq', hnot⟩ := hp
  obtain ⟨draft, hfind, hq⟩ := h.requires hfind' hq'
  exact ⟨draft, hfind, hq, (h.isMade_iff q).not.1 hnot⟩

theorem isStray (h : drafts.Alike drafts') {p : TargetPath} (hp : drafts'.IsStray p) : drafts.IsStray p :=
  ⟨(h.adjusted p).1 hp.1, hp.2.1, (h.isNeeded_iff p).not.1 hp.2.2⟩

end Alike

end Drafts

end Provision
