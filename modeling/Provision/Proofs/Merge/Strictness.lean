import Provision.Progress
import Provision.Proofs.Merge.Acceptance

/-! # Strict merges against lenient ones

Forbidding overrides changes nothing before the first of them, and there it stops the merge. So a lenient merge tells
by its warnings what a strict one would have said.

* `Draft.Tightened` — one resource under both rules; `Draft.merge_tightened` — it is the same, or an override that
  one rule records and the other refuses.
* `Builder.add_tightened`, `Builder.addAll_strict` — the same for one declaration and for a run of them.
* `Graph.build_strict` — the statement.
-/

namespace Provision

/-! ## One resource -/

namespace Draft

/-- What a resource comes to under the lenient rule and under the strict one. -/
inductive Tightened (kind : Kind) : Draft × Report → Draft × Report → Prop
  /-- Nothing is overridden, and the rules do not differ. -/
  | agreed {result : Draft × Report} (calm : ∀ notice first, result.2 ≠ .overrode notice first) :
      Tightened kind result result
  /-- The override that the lenient rule records is refused, with the same earlier declaration. -/
  | stopped {overridden kept : Draft} {notice : Notice} (isOverride : notice.isOverride) (first : Provenance) :
      Tightened kind (overridden, .overrode notice first) (kept, .refused (.override kind) first)

variable (draft : Draft) (source : Provenance)

theorem create_tightened (spec : EntrySpec) :
    Tightened spec.kind (draft.create .lenient spec source) (draft.create .strict spec source) := by
  simp only [create]
  cases draft.standing with
  | pending => exact .agreed (by simp)
  | implicit => exact .agreed (by simp)
  | removed first => exact .agreed (by simp)
  | entry existing first =>
    by_cases hkind : existing.kind ≠ spec.kind
    · simp only [if_pos hkind]
      exact .agreed (by simp)
    · simp only [if_neg hkind]
      by_cases heq : existing = spec
      · simp only [if_pos heq]
        exact .agreed (by simp)
      · simp only [if_neg heq, if_true, reduceCtorEq, if_false]
        exact .stopped rfl first

theorem adjust_tightened (permissions : Permissions) : Tightened .permissionSet
    (draft.adjust .lenient permissions source) (draft.adjust .strict permissions source) := by
  simp only [adjust]
  cases draft.adjustment with
  | none => exact .agreed (by simp)
  | some adjustment =>
    by_cases hchanged : adjustment.permissions.changed permissions = []
    · simp only [if_pos hchanged]
      exact .agreed (by simp)
    · simp only [if_neg hchanged, if_true, reduceCtorEq, if_false]
      exact .stopped rfl adjustment.last

theorem attach_tightened (xattr : Attribute) : Tightened .extendedAttribute
    (draft.attach .lenient xattr source) (draft.attach .strict xattr source) := by
  simp only [attach]
  cases draft.xattrs.find? xattr.name with
  | none => exact .agreed (by simp)
  | some held =>
    by_cases hvalue : held.1 = xattr.value
    · simp only [if_pos hvalue]
      exact .agreed (by simp)
    · simp only [if_neg hvalue, if_true, reduceCtorEq, if_false]
      exact .stopped rfl held.2

theorem merge_tightened (resource : Resource) :
    Tightened resource.kind (draft.merge .lenient resource source) (draft.merge .strict resource source) := by
  cases resource with
  | entry spec => exact draft.create_tightened source spec
  | permissions permissions => exact draft.adjust_tightened source permissions
  | xattr xattr => exact draft.attach_tightened source xattr
  | absent => exact .agreed (by simp [merge])

end Draft

/-! ## Declarations -/

/-- Whether a conflict tells of the override that a warning tells of. -/
structure Conflict.IsOf (conflict : Conflict) (w : Warning) : Prop where
  path : conflict.path = w.path
  provenance : w.provenance = [conflict.first, conflict.second]
  reason : ∃ kind, conflict.reason = .override kind

namespace Builder

/-- The builder with another rule from here on. -/
def under (b : Builder) (strictness : Strictness) : Builder := { b with strictness }

@[simp]
theorem under_new (strictness strictness' : Strictness) : (new strictness).under strictness' = new strictness' := rfl

/-- The warnings of overrides, in the order in which they were recorded. -/
def overrides (b : Builder) : List Warning := b.warnings.filter (·.notice.isOverride)

/-- One declaration under both rules: they do not differ and no override is recorded, or the lenient rule records one
    and the strict rule refuses the declaration for it. -/
inductive Tightened (b : Builder) : Builder × Option Conflict → Builder × Option Conflict → Prop
  | agreed (next : Builder) (verdict : Option Conflict) (calm : next.overrides = b.overrides) :
      b.Tightened (next.under .lenient, verdict) (next.under .strict, verdict)
  | stopped (next kept : Builder) (w : Warning) {conflict : Conflict} (isOf : conflict.IsOf w)
      (recorded : next.overrides = b.overrides ++ [w]) :
      b.Tightened (next.under .lenient, none) (kept, some conflict)

theorem overrides_remove (b : Builder) (d : Declaration) : (b.remove d).overrides = b.overrides := by
  simp only [overrides, remove, List.filter_append]
  split <;> simp [Notice.isOverride]

theorem merge_tightened (b : Builder) (d : Declaration) :
    b.Tightened ((b.under .lenient).merge d) ((b.under .strict).merge d) := by
  have h := (b.draft d.path).merge_tightened d.provenance d.resource
  cases hlenient : (b.draft d.path).merge .lenient d.resource d.provenance with
  | mk draft report =>
    cases hstrict : (b.draft d.path).merge .strict d.resource d.provenance with
    | mk kept report' =>
      rw [hlenient, hstrict] at h
      cases h with
      | agreed calm =>
        cases report with
        | merged =>
          rw [merge_of_merged hlenient, merge_of_merged hstrict]
          exact .agreed { b with drafts := b.drafts.insert d.path (draft.contribute d), seen := b.seen + 1 } none rfl
        | refused reason first =>
          rw [merge_of_refused hlenient, merge_of_refused hstrict]
          exact .agreed { b with drafts := b.drafts.insert d.path draft, seen := b.seen + 1 } _ rfl
        | overrode notice first => exact absurd rfl (calm notice first)
      | @stopped _ _ notice isOverride first =>
        rw [merge_of_overrode hlenient, merge_of_refused hstrict]
        refine .stopped
          { b with
            drafts := b.drafts.insert d.path (draft.contribute d)
            warnings := b.warnings ++ [⟨d.path, notice, [first, d.provenance]⟩]
            seen := b.seen + 1 } _ ⟨d.path, notice, [first, d.provenance]⟩ ⟨rfl, rfl, _, rfl⟩ ?_
        simp [overrides, isOverride]

theorem add_tightened (b : Builder) (d : Declaration) :
    b.Tightened ((b.under .lenient).add d) ((b.under .strict).add d) := by
  -- The rule has no part in removals, nor in what they forbid.
  by_cases hd : d.resource = .absent
  · rw [add, add, if_pos hd, if_pos hd]
    exact .agreed (b.remove d) none (b.overrides_remove d)
  · rw [add, add, if_neg hd, if_neg hd]
    cases hremoval : b.removal? d.path with
    | some first =>
      have hunder : ∀ strictness, (b.under strictness).removal? d.path = some first := fun _ => hremoval
      rw [hunder, hunder]
      exact .agreed { b with seen := b.seen + 1 } _ rfl
    | none =>
      have hunder : ∀ strictness, (b.under strictness).removal? d.path = none := fun _ => hremoval
      rw [hunder, hunder]
      exact b.merge_tightened d

/-- Overrides that were recorded stay recorded, before all later ones. -/
theorem overrides_addAccepted (b : Builder) (ds : List Declaration) :
    ∃ more, ((b.under .lenient).addAccepted ds).overrides = b.overrides ++ more := by
  induction ds generalizing b with
  | nil => exact ⟨[], (List.append_nil _).symm⟩
  | cons d rest ih =>
    rw [addAccepted]
    have h := b.add_tightened d
    generalize (b.under .lenient).add d = lenient at h ⊢
    generalize (b.under .strict).add d = strict at h
    cases h with
    | agreed next verdict calm =>
      cases verdict with
      | none =>
        rw [← calm]
        exact ih next
      | some conflict => exact ⟨[], (List.append_nil _).symm⟩
    | stopped next _ w _ recorded =>
      obtain ⟨more, hmore⟩ := ih next
      exact ⟨w :: more, by rw [hmore, recorded, List.append_assoc, List.singleton_append]⟩

/-- A run of declarations under both rules, up to the first override that the lenient rule records. -/
theorem addAll_strict (b : Builder) (ds : List Declaration) :
    (∃ w more conflict, ((b.under .lenient).addAccepted ds).overrides = b.overrides ++ w :: more ∧
        (b.under .strict).addAll ds = .error conflict ∧ conflict.IsOf w) ∨
      ((b.under .lenient).addAccepted ds).overrides = b.overrides ∧
        (b.under .strict).addAll ds = ((b.under .lenient).addAll ds).map (·.under .strict) := by
  induction ds generalizing b with
  | nil => exact .inr ⟨rfl, rfl⟩
  | cons d rest ih =>
    rw [addAccepted, addAll, addAll]
    have h := b.add_tightened d
    generalize (b.under .lenient).add d = lenient at h ⊢
    generalize (b.under .strict).add d = strict at h ⊢
    cases h with
    | agreed next verdict calm =>
      cases verdict with
      | none =>
        rw [← calm]
        exact ih next
      | some conflict => exact .inr ⟨rfl, rfl⟩
    | @stopped next kept w conflict isOf recorded =>
      obtain ⟨more, hmore⟩ := next.overrides_addAccepted rest
      exact .inl ⟨w, more, conflict, by rw [hmore, recorded, List.append_assoc, List.singleton_append], rfl, isOf⟩

/-- Where nothing is refused, all is accepted. -/
theorem addAccepted_of_addAll {b b' : Builder} {ds : List Declaration} (h : b.addAll ds = .ok b') :
    b.addAccepted ds = b' := by
  induction ds generalizing b with
  | nil =>
    cases h
    rfl
  | cons d rest ih =>
    cases hadd : b.add d with
    | mk next conflict? =>
      cases conflict? with
      | none =>
        simp only [addAll, hadd] at h
        simp only [addAccepted, hadd]
        exact ih h
      | some conflict =>
        simp only [addAll, hadd] at h
        cases h

end Builder

/-! ## Graphs -/

namespace Graph

/-- The overrides that a lenient merge of some declarations records, whatever becomes of it. -/
def overrides (ds : List Declaration) : List Warning := ((Builder.new .lenient).addAccepted ds).overrides

theorem overrides_of_build {ds : List Declaration} {g : Graph} (h : build .lenient ds = .ok g) :
    overrides ds = g.warnings.filter (·.notice.isOverride) := by
  rw [build] at h
  split at h
  · cases h
  · rename_i b hadd
    rw [Builder.finish, Drafts.finish_warnings] at h
    rw [overrides, Builder.addAccepted_of_addAll hadd, Builder.overrides]
    cases hfinish : b.drafts.finish [] with
    | error e =>
      rw [hfinish] at h
      cases h
    | ok g' =>
      rw [hfinish] at h
      cases h
      rfl

theorem build_of_overrides {ds : List Declaration} {w : Warning} {more : List Warning}
    (h : overrides ds = w :: more) : ∃ conflict, build .strict ds = .error (.conflict conflict) ∧ conflict.IsOf w := by
  obtain ⟨w', more', conflict, hoverrides, hadd, hisOf⟩ | ⟨hoverrides, -⟩ :=
    (Builder.new .lenient).addAll_strict ds
  · cases h.symm.trans hoverrides
    exact ⟨conflict, by rw [build, ← Builder.under_new, hadd], hisOf⟩
  · cases h.symm.trans hoverrides

theorem build_of_overrides_eq_nil {ds : List Declaration} (h : overrides ds = []) :
    build .strict ds = build .lenient ds := by
  obtain ⟨w, more, -, hoverrides, -⟩ | ⟨-, hadd⟩ := (Builder.new .lenient).addAll_strict ds
  · cases h.symm.trans hoverrides
  · rw [Builder.under_new, Builder.under_new] at hadd
    rw [build, build, hadd]
    -- Finishing knows no rule.
    cases (Builder.new .lenient).addAll ds with
    | error conflict => rfl
    | ok b => rfl

/-- A strict merge is a lenient one that records no override: without overrides the two come to the same, success or
    error, and otherwise the strict one stops at the first, which it names as the lenient one does. -/
theorem build_strict (ds : List Declaration) :
    (overrides ds = [] → build .strict ds = build .lenient ds) ∧
    (∀ w more, overrides ds = w :: more →
      ∃ conflict, build .strict ds = .error (.conflict conflict) ∧ conflict.IsOf w) ∧
    ∀ g, build .strict ds = .ok g ↔ build .lenient ds = .ok g ∧ ∀ w ∈ g.warnings, ¬w.notice.isOverride := by
  refine ⟨build_of_overrides_eq_nil, fun _ _ => build_of_overrides, fun g => ⟨fun h => ?_, fun ⟨h, hcalm⟩ => ?_⟩⟩
  · cases hoverrides : overrides ds with
    | nil =>
      rw [build_of_overrides_eq_nil hoverrides] at h
      rw [overrides_of_build h, List.filter_eq_nil_iff] at hoverrides
      exact ⟨h, hoverrides⟩
    | cons w more =>
      obtain ⟨conflict, herror, -⟩ := build_of_overrides hoverrides
      cases herror.symm.trans h
  · rw [build_of_overrides_eq_nil, h]
    rw [overrides_of_build h, List.filter_eq_nil_iff]
    exact hcalm

/-- A pipe that is removed again, and a file that is declared twice. -/
def rewritten : List Declaration :=
  [⟨⟨["run"], by decide⟩, .entry (.bare .fifo), ⟨"base", 0⟩, [], by decide, by decide⟩,
    ⟨⟨["run"], by decide⟩, .absent, ⟨"site", 0⟩, [], by decide, by decide⟩,
    ⟨⟨["hostname"], by decide⟩, .entry (.bare (.file [97])), ⟨"base", 1⟩, [], by decide, by decide⟩,
    ⟨⟨["hostname"], by decide⟩, .entry (.bare (.file [98])), ⟨"site", 1⟩, [], by decide, by decide⟩]

/-- What a removal takes with it is no override, so the first three declarations are the same under both rules; the
    last one stops a strict merge. -/
theorem rewritten_strict :
    overrides (rewritten.take 3) = [] ∧ build .strict (rewritten.take 3) = build .lenient (rewritten.take 3) ∧
    ∃ w conflict, overrides rewritten = [w] ∧ build .strict rewritten = .error (.conflict conflict) ∧
      conflict.IsOf w ∧ conflict.second = ⟨"site", 1⟩ := by
  have hcalm : overrides (rewritten.take 3) = [] := by cbv
  have hoverrides : overrides rewritten =
      [⟨⟨["hostname"], by decide⟩, .entryOverridden .regularFile, [⟨"base", 1⟩, ⟨"site", 1⟩]⟩] := by cbv
  obtain ⟨conflict, herror, hisOf⟩ := (build_strict rewritten).2.1 _ _ hoverrides
  refine ⟨hcalm, (build_strict _).1 hcalm, _, conflict, hoverrides, herror, hisOf, ?_⟩
  have := hisOf.provenance
  simp only [List.cons.injEq, and_true] at this
  exact this.2.symm

end Graph

end Provision
