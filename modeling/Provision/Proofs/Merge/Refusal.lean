import Provision.Proofs.Merge.Acceptance

/-! # Refused declarations

Whoever goes on after a conflict, to report all of them, relies on a refused declaration to leave nothing behind. It
leaves nothing, but for one case: where overriding is forbidden, a permission-set that would override is refused only
after it was laid over the earlier ones.

* `Builder.Reachable` — the builders that declarations, accepted or refused, lead to.
* `Builder.Delayed` — two builders that differ by the positions from one on; `Delayed.add` and `Delayed.addEach` —
  they go on alike, `Delayed.finish` — and come to the same.
* `Builder.add_refused` — what a refused declaration leaves; `tightened_after_refusal` — the case in which it leaves
  something.
-/

namespace Provision

/-! ## Going on -/

/-- Positions from one on, each one higher. -/
def delayed (first k : Nat) : Nat := if k < first then k else k + 1

namespace Builder

/-- The builder after some declarations, each offered whether or not the one before was refused. -/
def addEach (b : Builder) (ds : List Declaration) : Builder := ds.foldl (fun b d => (b.add d).1) b

/-- What becomes of each of some declarations. -/
def verdicts (b : Builder) : List Declaration → List (Option Conflict)
  | [] => []
  | d :: rest => (b.add d).2 :: (b.add d).1.verdicts rest

/-- The second builder has what the first has, with the positions from one on moved up. -/
structure Delayed (first : Nat) (b b' : Builder) : Prop where
  strictness : b'.strictness = b.strictness
  warnings : b'.warnings = b.warnings
  drafts : b'.drafts = Drafts.relabel (.moved (delayed first)) b.drafts
  seen : b'.seen = b.seen + 1
  reached : first ≤ b.seen

namespace Delayed

variable {first : Nat} {b b' : Builder}

theorem find? (h : Delayed first b b') (p : TargetPath) : b'.drafts.find? p =
    (b.drafts.find? p).map fun draft => draft.placedAt (delayed first draft.order) := by
  simp only [h.drafts, Drafts.find?_relabel, Draft.relabel_moved]

theorem draft (h : Delayed first b b') (p : TargetPath) :
    b'.draft p = (b.draft p).placedAt (delayed first (b.draft p).order) := by
  rw [Builder.draft, Builder.draft, h.find?]
  cases b.drafts.find? p with
  | some draft => rfl
  | none =>
    -- A new draft starts at the present position, which lies behind `first`.
    have hposition : delayed first b.seen = b'.seen := by
      rw [delayed, if_neg (Nat.not_lt.2 h.reached), h.seen]
    simp only [Option.map_none, Option.getD_none, Draft.fresh, Draft.placedAt, hposition]

theorem removal? (h : Delayed first b b') (p : TargetPath) : b'.removal? p = b.removal? p := by
  rw [Builder.removal?, Builder.removal?]
  congr 1
  funext q
  rw [removalAt?, removalAt?, h.find?, Option.map_map]
  rfl

theorem insert (h : Delayed first b b') (p : TargetPath) (draft : Draft) :
    b'.drafts.insert p (draft.placedAt (delayed first draft.order)) =
      Drafts.relabel (.moved (delayed first)) (b.drafts.insert p draft) := by
  rw [Drafts.insert_relabel, Draft.relabel_moved, h.drafts]

theorem merge (h : Delayed first b b') (d : Declaration) :
    Delayed first (b.merge d).1 (b'.merge d).1 ∧ (b'.merge d).2 = (b.merge d).2 := by
  have hseen : b'.seen + 1 = b.seen + 1 + 1 := congrArg (· + 1) h.seen
  have hreached : first ≤ b.seen + 1 := Nat.le_succ_of_le h.reached
  -- Merging ignores the position, so both builders put in the same draft, each at its own position.
  have horder := (b.draft d.path).merge_order b.strictness d.resource d.provenance
  rw [Builder.merge, Builder.merge, h.draft, h.strictness, Draft.merge_placedAt, ← horder]
  generalize (b.draft d.path).merge b.strictness d.resource d.provenance = merged
  obtain ⟨draft, report⟩ := merged
  have hcontributed := h.insert d.path (draft.contribute d)
  rw [Draft.contribute_order, ← Draft.contribute_placedAt] at hcontributed
  cases report with
  | refused reason source => exact ⟨⟨rfl, h.warnings, h.insert d.path draft, hseen, hreached⟩, rfl⟩
  | merged => exact ⟨⟨rfl, h.warnings, hcontributed, hseen, hreached⟩, rfl⟩
  | overrode notice source =>
    exact ⟨⟨rfl, congrArg (· ++ _) h.warnings, hcontributed, hseen, hreached⟩, rfl⟩

theorem withoutBeneath_relabel (r : Relabelling) (drafts : Drafts) (path : TargetPath) :
    Builder.withoutBeneath (drafts.relabel r) path = Drafts.relabel r (Builder.withoutBeneath drafts path) := by
  refine SortedMap.ext fun p => ?_
  rw [find?_withoutBeneath, Drafts.find?_relabel, Drafts.find?_relabel, find?_withoutBeneath]
  split <;> rfl

theorem remove (h : Delayed first b b') (d : Declaration) : Delayed first (b.remove d) (b'.remove d) := by
  have hsize : ∀ drafts : Drafts, (drafts.relabel (.moved (delayed first))).size = drafts.size :=
    fun drafts => List.length_map _
  refine ⟨h.strictness, ?_, ?_, congrArg (· + 1) h.seen, Nat.le_succ_of_le h.reached⟩
  · have hstate : (b'.draft d.path).hasState = (b.draft d.path).hasState := by
      rw [h.draft]
      rfl
    simp only [Builder.remove, h.warnings, h.drafts, withoutBeneath_relabel, hsize, hstate]
  · have hdraft : ((b'.draft d.path).removed d.provenance).contribute d =
        (((b.draft d.path).removed d.provenance).contribute d).placedAt (delayed first (b.draft d.path).order) := by
      rw [h.draft, ← Draft.contribute_placedAt]
      rfl
    simp only [Builder.remove, h.drafts, withoutBeneath_relabel, hdraft, Drafts.insert_relabel,
      Draft.relabel_moved, Draft.contribute_order]
    rfl

theorem add (h : Delayed first b b') (d : Declaration) :
    Delayed first (b.add d).1 (b'.add d).1 ∧ (b'.add d).2 = (b.add d).2 := by
  rw [Builder.add, Builder.add, h.removal?]
  split
  · exact ⟨h.remove d, rfl⟩
  · cases b.removal? d.path with
    | none => exact h.merge d
    | some source =>
      exact ⟨⟨h.strictness, h.warnings, h.drafts, congrArg (· + 1) h.seen, Nat.le_succ_of_le h.reached⟩, rfl⟩

theorem addEach (h : Delayed first b b') (ds : List Declaration) :
    Delayed first (b.addEach ds) (b'.addEach ds) := by
  induction ds generalizing b b' with
  | nil => exact h
  | cons d rest ih => exact ih (h.add d).1

theorem verdicts (h : Delayed first b b') (ds : List Declaration) : b'.verdicts ds = b.verdicts ds := by
  induction ds generalizing b b' with
  | nil => rfl
  | cons d rest ih =>
    obtain ⟨hnext, hverdict⟩ := h.add d
    rw [Builder.verdicts, Builder.verdicts, hverdict, ih hnext]

/-- An error of `finish` names declarations, but no positions. -/
theorem finish (h : Delayed first b b') (hopen : Drafts.IsOpen b.drafts) :
    b'.finish = b.finish.map (·.relabel (.moved (delayed first))) := by
  have herror : ∀ e : MergeError, e.relabel (.moved (delayed first)) = e := by
    intro e
    cases e with
    | conflict conflict => rfl
    | dangling dangling => cases dangling <;> rfl
  rw [Builder.finish, Builder.finish, h.drafts, h.warnings, Drafts.finish_relabel _ hopen]
  cases Drafts.finish b.drafts b.warnings with
  | ok g => rfl
  | error e => exact congrArg Except.error (herror e)

end Delayed

end Builder

/-! ## Reachable builders -/

/-- Whatever is kept at a path was first declared before a position. -/
def Drafts.Before (drafts : Drafts) (bound : Nat) : Prop :=
  ∀ p draft, drafts.find? p = some draft → draft.order < bound

theorem Drafts.Before.insert {drafts : Drafts} {bound : Nat} (h : drafts.Before bound) (p : TargetPath)
    {draft : Draft} (hdraft : draft.order < bound) : Drafts.Before (drafts.insert p draft) bound := by
  intro q found hfind
  by_cases hq : q = p
  · subst hq
    rw [SortedMap.find?_insert_self] at hfind
    exact Option.some.inj hfind ▸ hdraft
  · rw [SortedMap.find?_insert_of_ne _ hq] at hfind
    exact h q found hfind

theorem Drafts.Before.mono {drafts : Drafts} {bound bound' : Nat} (h : drafts.Before bound)
    (hle : bound ≤ bound') : drafts.Before bound' :=
  fun p draft hfind => Nat.lt_of_lt_of_le (h p draft hfind) hle

namespace Builder

/-- The builders that are met on the way through some declarations, refused ones included. -/
inductive Reachable : Builder → Prop
  | new (strictness : Strictness) : Reachable (new strictness)
  | add {b : Builder} (h : Reachable b) (d : Declaration) : Reachable (b.add d).1

theorem before_add {b : Builder} (h : Drafts.Before b.drafts b.seen) (d : Declaration) :
    Drafts.Before (b.add d).1.drafts (b.add d).1.seen := by
  have hnext := h.mono (Nat.le_succ b.seen)
  have hdraft : (b.draft d.path).order < b.seen + 1 := by
    rw [draft]
    cases hfind : b.drafts.find? d.path with
    | none => exact Nat.lt_succ_self b.seen
    | some draft => exact hnext d.path draft hfind
  obtain ⟨-, heq⟩ | ⟨-, first, -, heq⟩ | ⟨-, -, heq⟩ := b.add_cases d
  · -- A removal only takes drafts away, besides the one that it puts in.
    rw [heq]
    have hkept : Drafts.Before (withoutBeneath b.drafts d.path) (b.seen + 1) := by
      intro p draft hfind
      rw [find?_withoutBeneath] at hfind
      split at hfind
      · cases hfind
      · exact hnext p draft hfind
    refine hkept.insert d.path ?_
    rwa [Draft.contribute_order]
  · rw [heq]
    exact hnext
  · -- Refused or not, the draft at the path is put back at its position.
    have horder := (b.draft d.path).merge_order b.strictness d.resource d.provenance
    obtain ⟨draft, report, hmerge, ⟨reason, first, -, hmerged⟩ | ⟨-, more, hmerged⟩⟩ := b.merge_cases d
    · rw [hmerge] at horder
      rw [heq, hmerged]
      exact hnext.insert d.path (horder ▸ hdraft)
    · rw [hmerge] at horder
      rw [heq, hmerged]
      refine hnext.insert d.path ?_
      rw [Draft.contribute_order]
      exact horder ▸ hdraft

namespace Reachable

variable {b : Builder}

theorem isOpen (h : Reachable b) : Drafts.IsOpen b.drafts := by
  induction h with
  | new strictness => exact Drafts.isOpen_new strictness
  | add _ d ih => exact ih.add d

theorem before (h : Reachable b) : Drafts.Before b.drafts b.seen := by
  induction h with
  | new strictness =>
    intro p draft hfind
    cases hfind
  | add _ d ih => exact before_add ih d

theorem addEach (h : Reachable b) (ds : List Declaration) : Reachable (b.addEach ds) := by
  induction ds generalizing b with
  | nil => exact h
  | cons d rest ih => exact ih (h.add d)

theorem delayed_of_seen (h : Reachable b) : Delayed b.seen b { b with seen := b.seen + 1 } where
  strictness := rfl
  warnings := rfl
  seen := rfl
  reached := Nat.le_refl _
  drafts := by
    -- Every draft is older than the position that is passed over, so none is moved.
    refine SortedMap.ext fun p => ?_
    rw [Drafts.find?_relabel]
    cases hfind : b.drafts.find? p with
    | none => rfl
    | some draft =>
      rw [Option.map_some, Draft.relabel_moved, delayed, if_pos (h.before p draft hfind)]
      rfl

end Reachable

/-! ## What is left -/

/-- The second builder is the first with one declaration more counted: whatever is declared next is accepted or
    refused alike, and what they come to differs by the positions from there on. -/
structure IsSkipped (b b' : Builder) : Prop where
  eq : b' = { b with seen := b.seen + 1 }
  verdicts : ∀ more, b'.verdicts more = b.verdicts more
  finish : ∀ more, (b'.addEach more).finish =
    (b.addEach more).finish.map (·.relabel (.moved (delayed b.seen)))

theorem Reachable.isSkipped {b : Builder} (h : Reachable b) : b.IsSkipped { b with seen := b.seen + 1 } where
  eq := rfl
  verdicts more := h.delayed_of_seen.verdicts more
  finish more := (h.delayed_of_seen.addEach more).finish (h.addEach more).isOpen

/-- A refused declaration is as good as skipped, unless it is a permission-set that would override what an earlier
    one set where that is forbidden. Such a one is laid over the earlier ones, and nothing else changes. -/
theorem add_refused {b : Builder} (hb : Reachable b) {d : Declaration} {conflict : Conflict}
    (h : (b.add d).2 = some conflict) :
    (conflict.reason ≠ .override .permissionSet → b.IsSkipped (b.add d).1) ∧
    (conflict.reason = .override .permissionSet → b.strictness = .strict ∧
      ∃ draft permissions earlier, d.resource = .permissions permissions ∧
        b.drafts.find? d.path = some draft ∧ draft.adjustment = some ⟨earlier, conflict.first⟩ ∧
        earlier.changed permissions ≠ [] ∧
        (b.add d).1 = { b with
          drafts := b.drafts.insert d.path
            { draft with adjustment := some ⟨earlier.overlaid permissions, d.provenance⟩ }
          seen := b.seen + 1 }) := by
  obtain ⟨-, heq⟩ | ⟨-, first, -, heq⟩ | ⟨-, -, heq⟩ := b.add_cases d
  · rw [heq] at h
    cases h
  · rw [heq] at h ⊢
    cases h
    exact ⟨fun _ => hb.isSkipped, by simp⟩
  · obtain ⟨draft, report, hmerge, ⟨reason, first, rfl, hmerged⟩ | ⟨-, more, hmerged⟩⟩ := b.merge_cases d
    · rw [heq, hmerged] at h ⊢
      cases h
      have hfind := find?_of_refused hmerge
      obtain ⟨rfl, hreason⟩ | ⟨hstrict, rfl, permissions, earlier, hresource, hadjustment, hchanged, rfl⟩ :=
        Draft.merge_refused hmerge
      · -- The draft is put back as it was.
        rw [SortedMap.insert_eq_self hfind]
        exact ⟨fun _ => hb.isSkipped, fun e => absurd e hreason⟩
      · -- The permission-set was laid over the others before it was refused, and this is what is put back.
        refine ⟨fun hne => absurd rfl hne, fun _ => ⟨hstrict, _, permissions, earlier, hresource, hfind, ?_⟩⟩
        exact ⟨hadjustment, hchanged, rfl⟩
    · rw [heq, hmerged] at h
      cases h

def shared : Builder := (new .strict).addEach
  [⟨⟨["opt"], by decide⟩, .entry (.bare .directory), ⟨"site", 0⟩, [], by decide, by decide⟩,
    ⟨⟨["opt"], by decide⟩, .permissions ⟨some ⟨0o755⟩, none, none⟩, ⟨"site", 1⟩, [], by decide, by decide⟩]

def tightening : Declaration :=
  ⟨⟨["opt"], by decide⟩, .permissions ⟨some ⟨0o700⟩, none, none⟩, ⟨"site", 2⟩, [], by decide, by decide⟩

def displacement : Declaration :=
  ⟨⟨["opt"], by decide⟩, .entry (.bare .fifo), ⟨"site", 3⟩, [], by decide, by decide⟩

theorem shared_reachable : Reachable shared := (Reachable.new .strict).addEach _

/-- The mode that a merge comes to at each path. -/
def modes (b : Builder) : Option (List (Option Mode)) :=
  b.finish.toOption.map fun g => g.nodes.map fun n => n.state.entry?.bind (·.permissions.mode)

/-- The pipe is refused and forgotten; the mode is refused too, but it is kept. -/
theorem displacement_isSkipped : ∃ conflict conflict' draft,
    (shared.add displacement).2 = some conflict ∧ shared.IsSkipped (shared.add displacement).1 ∧
    (shared.add tightening).2 = some conflict' ∧ shared.drafts.find? tightening.path = some draft ∧
    (shared.add tightening).1 = { shared with
      drafts := shared.drafts.insert tightening.path
        { draft with adjustment := some ⟨⟨some ⟨0o700⟩, none, none⟩, ⟨"site", 2⟩⟩ }
      seen := shared.seen + 1 } := by
  have hpipe : (shared.add displacement).2 = some
      ⟨⟨["opt"], by decide⟩, ⟨"site", 0⟩, ⟨"site", 3⟩, .incompatibleKinds .directory .fifo⟩ := by cbv
  have hmode : (shared.add tightening).2 = some
      ⟨⟨["opt"], by decide⟩, ⟨"site", 1⟩, ⟨"site", 2⟩, .override .permissionSet⟩ := by cbv
  have hskipped := (add_refused shared_reachable hpipe).1 (by decide)
  obtain ⟨-, draft, permissions, earlier, hresource, hfind, hadjustment, -, heq⟩ :=
    (add_refused shared_reachable hmode).2 rfl
  have hearlier : (shared.drafts.find? tightening.path).bind (·.adjustment) =
      some ⟨⟨some ⟨0o755⟩, none, none⟩, ⟨"site", 1⟩⟩ := by cbv
  rw [hfind, Option.bind_some, hadjustment] at hearlier
  cases hearlier
  cases hresource
  exact ⟨_, _, draft, hpipe, hskipped, hmode, hfind, heq⟩

/-- A mode that was refused holds from then on: it is accepted when it is declared again, and the directory has it
    in the end. -/
theorem tightened_after_refusal :
    Reachable shared ∧ (shared.add tightening).2.isSome ∧
    (shared.add tightening).1.drafts ≠ shared.drafts ∧
    (shared.verdicts [tightening]).map Option.isSome = [true] ∧
    ((shared.add tightening).1.verdicts [tightening]).map Option.isSome = [false] ∧
    shared.modes = some [none, some ⟨0o755⟩] ∧
    (shared.add tightening).1.modes = some [none, some ⟨0o700⟩] := by
  refine ⟨shared_reachable, by cbv, fun heq => ?_, by cbv, by cbv, by cbv, by cbv⟩
  have hbefore : (shared.drafts.find? tightening.path).map (fun draft => draft.overlay.mode) =
    some (some ⟨0o755⟩) := by cbv
  have hafter : ((shared.add tightening).1.drafts.find? tightening.path).map (fun draft => draft.overlay.mode) =
    some (some ⟨0o700⟩) := by cbv
  rw [heq, hbefore] at hafter
  cases hafter

end Builder

end Provision
