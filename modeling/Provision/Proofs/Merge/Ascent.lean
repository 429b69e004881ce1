import Provision.Progress
import Provision.Proofs.Hierarchy
import Provision.Proofs.SortedMap

/-! # Filling in directories

The walk from an entry to the root stops at the first directory that is there already. Because entries
are taken in path order, all that lies above such a directory has been seen to before, so that the walks
have the outcome that walks to the very root would have: they fail with the first conflict among all
ascents, or else there is a directory at every path above an entry.

* `raised` — the draft at a path after some ascents; `Settled` — whether more of them would change it.
* `HasOutcome` — what walks are compared with; `climb_raised`, `climbAll_raised` — the walks.
* `Filled` — the drafts with directories filled in, look-up by look-up.
* `filledIn_outcome` — all walks together: the first conflict, or the drafts filled in.
-/

namespace Provision.Drafts

open Progress

/-! ## Ascents -/

/-- The draft at a path after some ascents: a directory where there was none or only an adjustment, if the
    path is one that was ascended to. -/
def raised (drafts : Drafts) (made : List Ascent) (p : TargetPath) : Option Draft :=
  match drafts.find? p, made.find? (fun a => a.ancestor = p) with
  | some draft, some _ =>
    some (if draft.standing = .pending then { draft with standing := .implicit } else draft)
  | some draft, none => some draft
  | none, some a => some { Draft.fresh a.climber.order with standing := .implicit }
  | none, none => none

/-- Whether an ascent has been made to a path. -/
def Reached (made : List Ascent) (p : TargetPath) : Prop := ∃ a ∈ made, a.ancestor = p

theorem find?_ascent_eq_none_iff {made : List Ascent} {p : TargetPath} :
    made.find? (fun a => a.ancestor = p) = none ↔ ¬Reached made p := by
  simp [List.find?_eq_none, Reached]

theorem raised_append_of_reached {drafts : Drafts} {made : List Ascent} {p : TargetPath}
    (h : Reached made p) (more : List Ascent) :
    raised drafts (made ++ more) p = raised drafts made p := by
  cases hfind : made.find? (fun a => a.ancestor = p) with
  | none => exact absurd h (find?_ascent_eq_none_iff.1 hfind)
  | some a => simp [raised, List.find?_append, hfind]

theorem raised_append_of_not_reached {drafts : Drafts} {made more : List Ascent} {p : TargetPath}
    (h : ¬Reached more p) : raised drafts (made ++ more) p = raised drafts made p := by
  simp [raised, List.find?_append, find?_ascent_eq_none_iff.2 h]

theorem raised_append_of_new {drafts : Drafts} {made more : List Ascent} {p : TargetPath}
    (h : ¬Reached made p) : raised drafts (made ++ more) p = raised drafts more p := by
  simp [raised, List.find?_append, find?_ascent_eq_none_iff.2 h]

/-- More ascents change nothing where there is something other than an adjustment. -/
theorem raised_of_standing {drafts : Drafts} {p : TargetPath} {draft : Draft}
    (hfind : drafts.find? p = some draft) (hstanding : draft.standing ≠ .pending)
    (made : List Ascent) : raised drafts made p = some draft := by
  unfold raised
  rw [hfind]
  cases made.find? (fun a => a.ancestor = p) <;> simp [hstanding]

/-- Whether further ascents to a path would change nothing. -/
def Settled (drafts : Drafts) (made : List Ascent) (p : TargetPath) : Prop :=
  Reached made p ∨ ∃ draft, drafts.find? p = some draft ∧ draft.standing ≠ .pending

theorem raised_append_of_settled {drafts : Drafts} {made more : List Ascent}
    (h : ∀ a ∈ more, Settled drafts made a.ancestor) (p : TargetPath) :
    raised drafts (made ++ more) p = raised drafts made p := by
  by_cases hmore : Reached more p
  · obtain ⟨a, ha, rfl⟩ := hmore
    rcases h a ha with hreached | ⟨draft, hfind, hstanding⟩
    · exact raised_append_of_reached hreached more
    · rw [raised_of_standing hfind hstanding, raised_of_standing hfind hstanding]
  · exact raised_append_of_not_reached hmore

/-! ## One walk -/

/-- Ascents to one path meet the same conflict or none. -/
theorem conflict?_eq_none_of_ancestor {drafts : Drafts} {a a' : Ascent}
    (h : conflict? drafts a = none) (heq : a'.ancestor = a.ancestor) :
    conflict? drafts a' = none := by
  unfold conflict? at *
  rw [heq]
  cases hs : (drafts.find? a.ancestor).map Draft.standing with
  | none => rfl
  | some standing =>
    rw [hs] at h
    cases standing with
    | entry spec first =>
      simp only at h ⊢
      split at h
      · rename_i hkind
        rw [if_pos hkind]
      · cases h
    | removed first => cases h
    | pending => rfl
    | implicit => rfl

/-- What the walk from an entry relies on: everything above a path that was reached or above an entry on
    the way has been reached, and nothing that was reached is in the way. -/
structure Prepared (drafts : Drafts) (made : List Ascent) (climber : Climber) : Prop where
  plain : ∀ {p draft}, drafts.find? p = some draft → draft.standing ≠ .implicit
  free : ∀ a ∈ made, conflict? drafts a = none
  upward : ∀ {p q}, Reached made p → q ∈ p.ancestors → Reached made q
  entries : ∀ {p q draft spec source}, drafts.find? p = some draft →
    draft.standing = .entry spec source → p ∈ climber.path.ancestors → q ∈ p.ancestors →
    Reached made q

variable {drafts m : Drafts} {made : List Ascent} {climber : Climber}

/-- Whether a walk has the outcome that all ascents that are left have: their first conflict, or else the
    drafts after all ascents. -/
def HasOutcome (drafts : Drafts) (all left : List Ascent) (result : Except Conflict Drafts) : Prop :=
  match left.findSome? (conflict? drafts) with
  | some conflict => result = .error conflict
  | none => ∃ m, result = .ok m ∧ ∀ p, m.find? p = raised drafts all p

theorem hasOutcome_of_conflict {all left : List Ascent} {a : Ascent} {conflict : Conflict}
    (h : conflict? drafts a = some conflict) :
    HasOutcome drafts all (a :: left) (.error conflict) := by
  rw [HasOutcome, List.findSome?_cons, h]

theorem HasOutcome.cons {all left : List Ascent} {a : Ascent} {result : Except Conflict Drafts}
    (hfree : conflict? drafts a = none) (h : HasOutcome drafts all left result) :
    HasOutcome drafts all (a :: left) result := by
  rwa [HasOutcome, List.findSome?_cons, hfree]

/-! ### One step -/

theorem climb_of_conflict {q : TargetPath} {conflict : Conflict} (hfind : m.find? q = raised drafts made q)
    (h : conflict? drafts ⟨climber, q⟩ = some conflict) (rest : List TargetPath) :
    m.climb climber (q :: rest) = .error conflict := by
  unfold conflict? at h
  cases hdraft : drafts.find? q with
  | none =>
    rw [hdraft] at h
    cases h
  | some draft =>
    simp only [hdraft, Option.map_some] at h
    cases hs : draft.standing with
    | pending =>
      rw [hs] at h
      cases h
    | implicit =>
      rw [hs] at h
      cases h
    | entry spec first =>
      simp only [hs] at h
      split at h
      · cases h
      · rename_i hkind
        cases h
        rw [climb, hfind, raised_of_standing hdraft (by simp [hs])]
        simp [hs, hkind]
    | removed first =>
      simp only [hs] at h
      cases h
      rw [climb, hfind, raised_of_standing hdraft (by simp [hs])]
      simp [hs]

/-- Where an ascent changes nothing and meets no conflict, there is a directory. -/
theorem raised_of_settled {q : TargetPath} (hfree : conflict? drafts ⟨climber, q⟩ = none)
    (hsettled : Settled drafts made q) :
    ∃ draft, raised drafts made q = some draft ∧ (draft.standing = .implicit ∨
      ∃ spec source, draft.standing = .entry spec source ∧ spec.kind = .directory) := by
  cases hdraft : drafts.find? q with
  | none =>
    rcases hsettled with hreached | ⟨draft, hfind, -⟩
    · obtain ⟨a, ha⟩ := Option.ne_none_iff_exists'.1
        fun e => find?_ascent_eq_none_iff.1 e hreached
      exact ⟨_, by rw [raised, hdraft, ha], .inl rfl⟩
    · rw [hdraft] at hfind
      cases hfind
  | some draft =>
    simp only [conflict?, hdraft, Option.map_some] at hfree
    cases hs : draft.standing with
    | pending =>
      rcases hsettled with hreached | ⟨draft', hfind, hstanding⟩
      · obtain ⟨a, ha⟩ := Option.ne_none_iff_exists'.1
          fun e => find?_ascent_eq_none_iff.1 e hreached
        exact ⟨_, by rw [raised, hdraft, ha], .inl (by rw [if_pos hs])⟩
      · cases hdraft.symm.trans hfind
        exact absurd hs hstanding
    | implicit => exact ⟨draft, raised_of_standing hdraft (by simp [hs]) made, .inl hs⟩
    | entry spec first =>
      simp only [hs] at hfree
      split at hfree
      · rename_i hkind
        exact ⟨draft, raised_of_standing hdraft (by simp [hs]) made, .inr ⟨spec, first, hs, hkind⟩⟩
      · cases hfree
    | removed first =>
      rw [hs] at hfree
      cases hfree

theorem climb_of_settled {q : TargetPath} (hfind : m.find? q = raised drafts made q)
    (hfree : conflict? drafts ⟨climber, q⟩ = none) (hsettled : Settled drafts made q)
    (rest : List TargetPath) : m.climb climber (q :: rest) = .ok m := by
  obtain ⟨draft, hraised, hs | ⟨spec, first, hs, hkind⟩⟩ := raised_of_settled hfree hsettled
  · rw [climb, hfind, hraised]
    simp [hs]
  · rw [climb, hfind, hraised]
    simp [hs, hkind]

theorem climb_of_not_settled {q : TargetPath} (hfind : m.find? q = raised drafts made q)
    (h : ¬Settled drafts made q) (rest : List TargetPath) :
    ∃ draft, raised drafts [⟨climber, q⟩] q = some draft ∧
      m.climb climber (q :: rest) = Drafts.climb climber (m.insert q draft) rest := by
  obtain ⟨hreached, hstanding⟩ := not_or.1 h
  have hnone := find?_ascent_eq_none_iff.2 hreached
  cases hdraft : drafts.find? q with
  | none =>
    refine ⟨{ Draft.fresh climber.order with standing := .implicit }, by simp [raised, hdraft], ?_⟩
    rw [climb, hfind, raised, hdraft, hnone]
  | some draft =>
    have hs : draft.standing = .pending := by
      by_contra hs
      exact hstanding ⟨draft, hdraft, hs⟩
    refine ⟨{ draft with standing := .implicit }, by simp [raised, hdraft, hs], ?_⟩
    rw [climb, hfind, raised, hdraft, hnone]
    simp [hs]

/-! ### All steps -/

/-- Above a directory that an ascent would not change, everything has been reached. -/
theorem Prepared.reached_of_settled (h : Prepared drafts made climber) {q r : TargetPath}
    (hq : q ∈ climber.path.ancestors) (hfree : conflict? drafts ⟨climber, q⟩ = none)
    (hsettled : Settled drafts made q) (hr : r ∈ q.ancestors) : Reached made r := by
  rcases hsettled with hreached | ⟨draft, hdraft, hstanding⟩
  · exact h.upward hreached hr
  · cases hs : draft.standing with
    | pending => exact absurd hs hstanding
    | implicit => exact absurd hs (h.plain hdraft)
    | entry spec first => exact h.entries hdraft hs hq hr
    | removed first => simp [conflict?, hdraft, hs] at hfree

/-- A walk may stop where no ascent that is left would change anything. -/
theorem hasOutcome_of_settled {before rest : List TargetPath}
    (hsplit : climber.path.ancestors = before ++ rest)
    (hm : ∀ p, m.find? p = raised drafts (made ++ before.map (Ascent.mk climber)) p)
    (hfree : ∀ q ∈ rest, conflict? drafts ⟨climber, q⟩ = none)
    (hsettled : ∀ q ∈ rest, Settled drafts made q) :
    HasOutcome drafts (made ++ ascentsOf climber) (rest.map (Ascent.mk climber)) (.ok m) := by
  have hnone : (rest.map (Ascent.mk climber)).findSome? (conflict? drafts) = none := by
    refine List.findSome?_eq_none_iff.2 fun a ha => ?_
    obtain ⟨q, hq, rfl⟩ := List.mem_map.1 ha
    exact hfree q hq
  rw [HasOutcome, hnone]
  refine ⟨m, rfl, fun p => ?_⟩
  rw [hm, ascentsOf, hsplit, List.map_append, ← List.append_assoc]
  refine (raised_append_of_settled (fun a ha => ?_) p).symm
  obtain ⟨q, hq, rfl⟩ := List.mem_map.1 ha
  refine (hsettled q hq).imp_left ?_
  rintro ⟨a, ha, heq⟩
  exact ⟨a, List.mem_append_left _ ha, heq⟩

/-- The walk from an entry, stopping early or not, has the outcome of all ascents from it. -/
theorem climb_raised (h : Prepared drafts made climber) (before rest : List TargetPath)
    (hm : ∀ p, m.find? p = raised drafts (made ++ before.map (Ascent.mk climber)) p)
    (hsplit : climber.path.ancestors = before ++ rest) :
    HasOutcome drafts (made ++ ascentsOf climber) (rest.map (Ascent.mk climber))
      (m.climb climber rest) := by
  induction rest generalizing m before with
  | nil =>
    rw [List.append_nil] at hsplit
    exact ⟨m, rfl, by rwa [ascentsOf, hsplit]⟩
  | cons q rest ih =>
    have hrest : rest = q.ancestors := TargetPath.ancestors_tail hsplit
    have hq : q ∈ climber.path.ancestors := by simp [hsplit]
    have hbefore : ¬Reached (before.map (Ascent.mk climber)) q := by
      rintro ⟨a, ha, rfl⟩
      obtain ⟨q, hqb, rfl⟩ := List.mem_map.1 ha
      have nodup := climber.path.ancestors_nodup
      rw [hsplit, List.nodup_append] at nodup
      exact nodup.2.2 q hqb q List.mem_cons_self rfl
    have hfind : m.find? q = raised drafts made q := by
      rw [hm, raised_append_of_not_reached hbefore]
    cases hconflict : conflict? drafts ⟨climber, q⟩ with
    | some conflict =>
      rw [climb_of_conflict hfind hconflict]
      exact hasOutcome_of_conflict hconflict
    | none =>
      by_cases hsettled : Settled drafts made q
      · -- The walk ends here: further ascents change nothing and meet no conflict.
        have hreached : ∀ r ∈ rest, Reached made r := fun r hr =>
          h.reached_of_settled hq hconflict hsettled (hrest ▸ hr)
        rw [climb_of_settled hfind hconflict hsettled]
        refine hasOutcome_of_settled hsplit hm (fun r hr => ?_) fun r hr => ?_
        · rcases List.mem_cons.1 hr with rfl | hr
          · exact hconflict
          · obtain ⟨a, ha, heq⟩ := hreached r hr
            exact conflict?_eq_none_of_ancestor (h.free a ha) heq.symm
        · rcases List.mem_cons.1 hr with rfl | hr
          · exact hsettled
          · exact .inl (hreached r hr)
      · -- A directory comes into being, and the walk goes on.
        obtain ⟨draft, hraised, hclimb⟩ := climb_of_not_settled hfind hsettled rest
        rw [hclimb]
        refine HasOutcome.cons hconflict (ih (before ++ [q]) (fun p => ?_) (by simp [hsplit]))
        rw [List.map_append, List.map_singleton, ← List.append_assoc]
        by_cases hp : p = q
        · subst hp
          have hnew : ¬Reached (made ++ before.map (Ascent.mk climber)) p := by
            rintro ⟨a, ha, heq⟩
            rcases List.mem_append.1 ha with ha | ha
            · exact hsettled (.inl ⟨a, ha, heq⟩)
            · exact hbefore ⟨a, ha, heq⟩
          rw [SortedMap.find?_insert_self, raised_append_of_new hnew, hraised]
        · have hne : ¬Reached [Ascent.mk climber q] p := by
            rintro ⟨a, ha, rfl⟩
            rw [List.mem_singleton.1 ha] at hp
            exact hp rfl
          rw [SortedMap.find?_insert_of_ne _ hp, hm, raised_append_of_not_reached hne]

/-! ## All walks -/

theorem climbers_pairwise (drafts : Drafts) :
    drafts.climbers.Pairwise fun a b => TargetPath.order a.path b.path = .lt := by
  apply drafts.sorted.filterMap _
  intro e e' hlt c hc c' hc'
  obtain ⟨p, draft⟩ := e
  obtain ⟨p', draft'⟩ := e'
  simp only at hc hc'
  split at hc <;> cases hc
  split at hc' <;> cases hc'
  exact hlt

theorem exists_climber {p : TargetPath} {draft : Draft} {spec : EntrySpec} {source : Provenance}
    (hfind : drafts.find? p = some draft) (hs : draft.standing = .entry spec source) :
    ∃ c ∈ drafts.climbers, c.path = p :=
  ⟨⟨p, source, draft.order⟩,
    List.mem_filterMap.2 ⟨(p, draft), SortedMap.mem_entries_of_find? hfind, by simp [hs]⟩, rfl⟩

theorem entry_of_mem_climbers {c : Climber} (h : c ∈ drafts.climbers) :
    ∃ draft spec, drafts.find? c.path = some draft ∧ draft.standing = .entry spec c.declaredBy := by
  obtain ⟨⟨p, draft⟩, hmem, hc⟩ := List.mem_filterMap.1 h
  simp only at hc
  split at hc
  · rename_i spec source hs
    cases hc
    exact ⟨draft, spec, SortedMap.mem_entries_iff.1 hmem, hs⟩
  · cases hc

theorem reached_flatMap_iff {climbers : List Climber} {p : TargetPath} :
    Reached (climbers.flatMap ascentsOf) p ↔ ∃ c ∈ climbers, p ∈ c.path.ancestors := by
  constructor
  · rintro ⟨a, ha, rfl⟩
    obtain ⟨c, hc, ha⟩ := List.mem_flatMap.1 ha
    obtain ⟨q, hq, rfl⟩ := List.mem_map.1 ha
    exact ⟨c, hc, hq⟩
  · rintro ⟨c, hc, hp⟩
    exact ⟨⟨c, p⟩, List.mem_flatMap.2 ⟨c, hc, List.mem_map_of_mem hp⟩, rfl⟩

/-- After all earlier entries, everything is prepared for the next one: an entry above it comes earlier in
    path order. -/
theorem prepared (plain : ∀ {p draft}, drafts.find? p = some draft → draft.standing ≠ .implicit)
    {front back : List Climber} (hsplit : drafts.climbers = front ++ climber :: back)
    (hfree : ∀ a ∈ front.flatMap ascentsOf, conflict? drafts a = none) :
    Prepared drafts (front.flatMap ascentsOf) climber where
  plain := plain
  free := hfree
  upward hreached hq := by
    obtain ⟨c, hc, hp⟩ := reached_flatMap_iff.1 hreached
    exact reached_flatMap_iff.2 ⟨c, hc, TargetPath.mem_ancestors_trans hp hq⟩
  entries hfind hs hp hq := by
    obtain ⟨c, hc, rfl⟩ := exists_climber hfind hs
    have hlt := TargetPath.order_lt_of_mem_ancestors hp
    have hpairwise := drafts.climbers_pairwise
    rw [hsplit] at hc hpairwise
    rcases List.mem_append.1 hc with hc | hc
    · exact reached_flatMap_iff.2 ⟨c, hc, hq⟩
    rcases List.mem_cons.1 hc with rfl | hc
    · exact absurd hp (TargetPath.not_mem_ancestors_self _)
    · have hgt := (List.pairwise_cons.1 (List.pairwise_append.1 hpairwise).2.1).1 c hc
      rw [Std.OrientedCmp.gt_of_lt hlt] at hgt
      cases hgt

/-- The walks from the entries that are left have the outcome of all ascents that are left. -/
theorem climbAll_raised
    (plain : ∀ {p draft}, drafts.find? p = some draft → draft.standing ≠ .implicit)
    (front back : List Climber) (hsplit : drafts.climbers = front ++ back)
    (hfree : ∀ a ∈ front.flatMap ascentsOf, conflict? drafts a = none)
    (hm : ∀ p, m.find? p = raised drafts (front.flatMap ascentsOf) p) :
    HasOutcome drafts (ascents drafts) (back.flatMap ascentsOf) (m.climbAll back) := by
  induction back generalizing m front with
  | nil =>
    rw [List.append_nil] at hsplit
    exact ⟨m, rfl, by rwa [ascents, hsplit]⟩
  | cons climber back ih =>
    have hwalk : HasOutcome drafts _ (ascentsOf climber) (m.climb climber climber.path.ancestors) :=
      climb_raised (prepared plain hsplit hfree) [] climber.path.ancestors (by simpa using hm) rfl
    rw [HasOutcome] at hwalk
    rw [HasOutcome, List.flatMap_cons, List.findSome?_append, climbAll]
    cases hconflict : (ascentsOf climber).findSome? (conflict? drafts) with
    | some conflict =>
      rw [hconflict] at hwalk
      rw [hwalk]
      rfl
    | none =>
      rw [hconflict] at hwalk
      obtain ⟨m', hok, hm'⟩ := hwalk
      rw [hok]
      refine ih (front ++ [climber]) (by simp [hsplit]) (fun a ha => ?_) (by simpa using hm')
      rw [List.flatMap_append, List.mem_append] at ha
      rcases ha with ha | ha
      · exact hfree a ha
      · rw [List.flatMap_singleton] at ha
        exact List.findSome?_eq_none_iff.1 hconflict a ha

/-! ## The outcome -/

/-- Whether a path is above an entry. -/
def IsNeeded (drafts : Drafts) (p : TargetPath) : Prop :=
  ∃ q draft spec source, drafts.find? q = some draft ∧ draft.standing = .entry spec source ∧
    p ∈ q.ancestors

theorem reached_ascents_iff {p : TargetPath} : Reached (ascents drafts) p ↔ IsNeeded drafts p := by
  rw [ascents, reached_flatMap_iff]
  constructor
  · rintro ⟨c, hc, hp⟩
    obtain ⟨draft, spec, hfind, hs⟩ := entry_of_mem_climbers hc
    exact ⟨c.path, draft, spec, _, hfind, hs, hp⟩
  · rintro ⟨q, draft, spec, source, hfind, hs, hp⟩
    obtain ⟨c, hc, rfl⟩ := exists_climber hfind hs
    exact ⟨c, hc, hp⟩

/-- Drafts with directories filled in: at every path above an entry, and at the root where it is adjusted,
    where there is not something else. -/
structure Filled (drafts filled : Drafts) : Prop where
  /-- What stands is kept. -/
  kept : ∀ {p draft}, drafts.find? p = some draft → draft.standing ≠ .pending →
    filled.find? p = some draft
  /-- What is adjusted and needed becomes a directory. -/
  raised : ∀ {p draft}, drafts.find? p = some draft → draft.standing = .pending →
    IsNeeded drafts p ∨ p = .root → filled.find? p = some { draft with standing := .implicit }
  /-- What is adjusted and not needed is left. -/
  left : ∀ {p draft}, drafts.find? p = some draft → draft.standing = .pending →
    ¬(IsNeeded drafts p ∨ p = .root) → filled.find? p = some draft
  /-- What is needed and not there is added. -/
  added : ∀ {p}, drafts.find? p = none → IsNeeded drafts p →
    ∃ order, filled.find? p = some { Draft.fresh order with standing := .implicit }
  /-- Nothing else is added. -/
  none : ∀ {p}, drafts.find? p = Option.none → ¬IsNeeded drafts p → filled.find? p = Option.none

theorem find?_rooted (m : Drafts) (p : TargetPath) :
    m.rooted.find? p = (m.find? p).map fun draft =>
      if p = .root ∧ draft.standing = .pending then { draft with standing := .implicit } else draft := by
  unfold rooted
  cases hroot : m.find? .root with
  | none =>
    by_cases hp : p = .root
    · rw [hp, hroot]; rfl
    · simp [hp]
  | some draft =>
    by_cases hp : p = .root
    · subst hp
      by_cases hs : draft.standing = .pending <;> simp [hroot, hs]
    · simp only [hp, false_and, if_false, Option.map_id']
      split
      · rw [SortedMap.find?_insert_of_ne _ hp]
      · rfl

theorem filled_of_raised (hm : ∀ p, m.find? p = raised drafts (ascents drafts) p) :
    Filled drafts m.rooted where
  kept hfind hs := by
    rw [find?_rooted, hm, raised_of_standing hfind hs]
    simp [hs]
  raised {p draft} hfind hs hneeded := by
    rw [find?_rooted, hm, Drafts.raised, hfind]
    cases hmade : (ascents drafts).find? (fun a => a.ancestor = p) with
    | some a => simp [hs]
    | none =>
      rcases hneeded with hneeded | rfl
      · exact absurd (reached_ascents_iff.2 hneeded) (find?_ascent_eq_none_iff.1 hmade)
      · simp [hs]
  left {p draft} hfind hs hnot := by
    obtain ⟨hneeded, hroot⟩ := not_or.1 hnot
    rw [find?_rooted, hm, Drafts.raised, hfind,
      find?_ascent_eq_none_iff.2 (hneeded ∘ reached_ascents_iff.1)]
    simp [hroot]
  added {p} hfind hneeded := by
    obtain ⟨a, ha⟩ := Option.ne_none_iff_exists'.1
      fun e => find?_ascent_eq_none_iff.1 e (reached_ascents_iff.2 hneeded)
    refine ⟨a.climber.order, ?_⟩
    rw [find?_rooted, hm, Drafts.raised, hfind, ha]
    simp
  none hfind hnot := by
    rw [find?_rooted, hm, Drafts.raised, hfind,
      find?_ascent_eq_none_iff.2 (hnot ∘ reached_ascents_iff.1)]
    rfl

/-- Filling in fails with the first conflict among all ascents; without one it fills in all directories. -/
theorem filledIn_outcome
    (plain : ∀ {p draft}, drafts.find? p = some draft → draft.standing ≠ .implicit) :
    match (ascents drafts).findSome? (conflict? drafts) with
    | some conflict => drafts.filledIn = .error conflict
    | none => ∃ filled, drafts.filledIn = .ok filled ∧ Filled drafts filled := by
  have hnone : ∀ p, drafts.find? p = raised drafts [] p := by
    intro p
    cases hp : drafts.find? p <;> simp [raised, hp]
  have hwalks : HasOutcome drafts (ascents drafts) (ascents drafts) (drafts.climbAll drafts.climbers) :=
    climbAll_raised plain [] drafts.climbers rfl (by simp) hnone
  rw [HasOutcome] at hwalks
  rw [filledIn]
  cases hconflict : (ascents drafts).findSome? (conflict? drafts) with
  | some conflict =>
    rw [hconflict] at hwalks
    rw [hwalks]
    rfl
  | none =>
    rw [hconflict] at hwalks
    obtain ⟨m, hok, hm⟩ := hwalks
    exact ⟨m.rooted, by rw [hok]; rfl, filled_of_raised hm⟩

theorem of_filledIn
    (plain : ∀ {p draft}, drafts.find? p = some draft → draft.standing ≠ .implicit)
    {filled : Drafts} (h : drafts.filledIn = .ok filled) :
    Filled drafts filled ∧ ∀ a ∈ ascents drafts, conflict? drafts a = none := by
  have houtcome := filledIn_outcome plain
  cases hconflict : (ascents drafts).findSome? (conflict? drafts) with
  | some conflict =>
    rw [hconflict] at houtcome
    rw [houtcome] at h
    cases h
  | none =>
    rw [hconflict] at houtcome
    obtain ⟨filled', hok, hfilled⟩ := houtcome
    rw [hok] at h
    cases h
    exact ⟨hfilled, List.findSome?_eq_none_iff.1 hconflict⟩

end Provision.Drafts
