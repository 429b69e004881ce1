import Provision.Proofs.Merge.Acceptance

/-! # Merging path by path

Where nothing is removed, what a merge makes of a path is a matter of the declarations at that path alone: they merge
into a draft one after the other, whatever is declared elsewhere in between.

* `Draft.accept?` — one more declaration at the path of a draft; `Draft.acceptAll?` — several.
* `mergedAt?` — the merge of the declarations at a path.
* `Builder.HasMerged` — a builder against these; `HasMerged.concat` — one more declaration keeps it.
* `Builder.addAll_outcome` — a merge succeeds when it does at each path, and then has what it comes to there;
  `Builder.addAll_congr` — so two merges are the same when they are at each path.
-/

namespace Provision

/-! ## At one path -/

namespace Draft

/-- One more declaration at the path of a draft; nothing, if it is refused. -/
def accept? (strictness : Strictness) (draft : Draft) (d : Declaration) : Option Draft :=
  match draft.merge strictness d.resource d.provenance with
  | (_, .refused ..) => none
  | (merged, _) => some (merged.contribute d)

def acceptAll? (strictness : Strictness) (draft : Draft) (ds : List Declaration) : Option Draft :=
  ds.foldlM (accept? strictness) draft

variable {strictness : Strictness} {draft : Draft}

theorem accept?_eq_some_iff {draft' : Draft} {d : Declaration} :
    draft.accept? strictness d = some draft' ↔
      ¬(draft.merge strictness d.resource d.provenance).2.IsRefusal ∧
        draft' = (draft.merge strictness d.resource d.provenance).1.contribute d := by
  rw [accept?]
  generalize draft.merge strictness d.resource d.provenance = merged
  obtain ⟨merged, report⟩ := merged
  cases report <;> simp [eq_comm]

theorem accept?_eq_none_iff {d : Declaration} :
    draft.accept? strictness d = none ↔ (draft.merge strictness d.resource d.provenance).2.IsRefusal := by
  rw [accept?]
  generalize draft.merge strictness d.resource d.provenance = merged
  obtain ⟨merged, report⟩ := merged
  cases report <;> simp

theorem acceptAll?_cons (draft : Draft) (d : Declaration) (ds : List Declaration) :
    draft.acceptAll? strictness (d :: ds) = (draft.accept? strictness d).bind (·.acceptAll? strictness ds) := rfl

theorem acceptAll?_append (draft : Draft) (ds more : List Declaration) :
    draft.acceptAll? strictness (ds ++ more) =
      (draft.acceptAll? strictness ds).bind (·.acceptAll? strictness more) := by
  rw [acceptAll?, List.foldlM_append]
  rfl

theorem acceptAll?_concat (draft : Draft) (ds : List Declaration) (d : Declaration) :
    draft.acceptAll? strictness (ds ++ [d]) =
      (draft.acceptAll? strictness ds).bind (·.accept? strictness d) := by
  rw [acceptAll?_append]
  congr 1
  funext draft
  exact Option.bind_fun_some _

theorem accept?_placedAt (draft : Draft) (order : Nat) (d : Declaration) :
    (draft.placedAt order).accept? strictness d = (draft.accept? strictness d).map (·.placedAt order) := by
  rw [accept?, accept?, merge_placedAt]
  generalize draft.merge strictness d.resource d.provenance = merged
  obtain ⟨merged, report⟩ := merged
  cases report <;> simp [contribute_placedAt]

theorem acceptAll?_placedAt (draft : Draft) (order : Nat) (ds : List Declaration) :
    (draft.placedAt order).acceptAll? strictness ds =
      (draft.acceptAll? strictness ds).map (·.placedAt order) := by
  induction ds generalizing draft with
  | nil => rfl
  | cons d rest ih =>
    rw [acceptAll?_cons, acceptAll?_cons, accept?_placedAt]
    cases draft.accept? strictness d with
    | none => rfl
    | some accepted => exact ih accepted

end Draft

/-- The merge of the declarations at a path, where none is refused. -/
def mergedAt? (strictness : Strictness) (p : TargetPath) (ds : List Declaration) : Option Draft :=
  (Draft.fresh (ds.findIdx (·.path = p))).acceptAll? strictness (ds.filter (·.path = p))

theorem mergedAt?_of_nil {strictness : Strictness} {p : TargetPath} {ds : List Declaration}
    (h : ds.filter (·.path = p) = []) :
    mergedAt? strictness p ds = some (.fresh (ds.findIdx (·.path = p))) := by
  rw [mergedAt?, h]
  rfl

theorem findIdx_lt_iff {p : TargetPath} {ds : List Declaration} :
    ds.findIdx (·.path = p) < ds.length ↔ ds.filter (·.path = p) ≠ [] := by
  rw [List.findIdx_lt_length, Ne, List.filter_eq_nil_iff]
  simp

theorem mergedAt?_concat_of_ne {strictness : Strictness} {p : TargetPath} {ds : List Declaration} {d : Declaration}
    (hp : d.path ≠ p) (hne : ds.filter (·.path = p) ≠ []) :
    mergedAt? strictness p (ds ++ [d]) = mergedAt? strictness p ds := by
  rw [mergedAt?, mergedAt?, List.findIdx_append, if_pos (findIdx_lt_iff.2 hne)]
  simp [hp]

/-- What was refused at a path is not made up for by what comes later. -/
theorem mergedAt?_concat_of_none {strictness : Strictness} {p : TargetPath} {ds : List Declaration}
    (h : mergedAt? strictness p ds = none) (d : Declaration) : mergedAt? strictness p (ds ++ [d]) = none := by
  have hne : ds.filter (·.path = p) ≠ [] := by
    intro hnil
    rw [mergedAt?_of_nil hnil] at h
    cases h
  rw [mergedAt?] at h
  rw [mergedAt?, List.findIdx_append, if_pos (findIdx_lt_iff.2 hne), List.filter_append, Draft.acceptAll?_append, h]
  rfl

/-! ## At all paths -/

namespace Builder

/-- A builder with the merge of the declarations at each path at which there are any. -/
structure HasMerged (b : Builder) (strictness : Strictness) (ds : List Declaration) : Prop where
  strictness_eq : b.strictness = strictness
  seen : b.seen = ds.length
  accepted : ∀ p, (mergedAt? strictness p ds).isSome
  find? : ∀ p, b.drafts.find? p = if ds.filter (·.path = p) = [] then none else mergedAt? strictness p ds

variable {strictness : Strictness} {b : Builder} {ds : List Declaration} {d : Declaration}

/-- After declarations none of which removes, nothing is removed. -/
theorem Reflects.removal?_eq_none (h : b.Reflects ds) (hds : ∀ d ∈ ds, ¬d.IsRemoval) (p : TargetPath) :
    b.removal? p = Option.none := by
  rw [removal?_eq_none_iff]
  intro q _
  cases hat : b.removalAt? q with
  | none => rfl
  | some source =>
    obtain ⟨draft, hfind, hstanding⟩ := removalAt?_eq_some_iff.1 hat
    have hreflects := (h.draft hfind).1.standing
    rw [hstanding] at hreflects
    obtain ⟨d, hd, hremoval⟩ := hreflects
    exact absurd hremoval (hds d (mem_of_mem_inForce hd))

namespace HasMerged

theorem draft_eq (h : b.HasMerged strictness ds) (p : TargetPath) :
    mergedAt? strictness p ds = if ds.filter (·.path = p) = [] then
      some (.fresh (ds.findIdx (·.path = p))) else some (b.draft p) := by
  split
  · rename_i hnil
    exact mergedAt?_of_nil hnil
  · rename_i hne
    obtain ⟨draft, hdraft⟩ := Option.isSome_iff_exists.1 (h.accepted p)
    rw [Builder.draft, h.find?, if_neg hne, hdraft]
    rfl

theorem mergedAt?_concat (h : b.HasMerged strictness ds) (d : Declaration) :
    mergedAt? strictness d.path (ds ++ [d]) = (b.draft d.path).accept? strictness d := by
  have hfilter : (ds ++ [d]).filter (·.path = d.path) = ds.filter (·.path = d.path) ++ [d] := by simp
  have hdraft : (Draft.fresh ((ds ++ [d]).findIdx (·.path = d.path))).acceptAll? strictness
      (ds.filter (·.path = d.path)) = some (b.draft d.path) := by
    rw [List.findIdx_append]
    by_cases hnil : ds.filter (·.path = d.path) = []
    · -- Nothing is declared here yet, so the draft starts at this position.
      rw [if_neg fun hlt => findIdx_lt_iff.1 hlt hnil, hnil, Builder.draft, h.find?, if_pos hnil, h.seen]
      simp [Draft.acceptAll?]
    · rw [if_pos (findIdx_lt_iff.2 hnil)]
      exact (h.draft_eq d.path).trans (if_neg hnil)
  rw [mergedAt?, hfilter, Draft.acceptAll?_concat, hdraft]
  rfl

end HasMerged

/-- Where nothing is removed, a declaration is accepted when the draft at its path accepts it. -/
theorem add_outcome (b : Builder) (hd : ¬d.IsRemoval) (hopen : b.removal? d.path = none) :
    (∃ draft more, (b.draft d.path).accept? b.strictness d = some draft ∧ b.add d = ({ b with
        drafts := b.drafts.insert d.path draft
        warnings := b.warnings ++ more
        seen := b.seen + 1 }, none)) ∨
      (b.draft d.path).accept? b.strictness d = none ∧ ∃ conflict, (b.add d).2 = some conflict := by
  obtain ⟨hremoval, -⟩ | ⟨-, first, hremoved, -⟩ | ⟨-, -, heq⟩ := b.add_cases d
  · exact absurd hremoval hd
  · cases hopen.symm.trans hremoved
  · obtain ⟨draft, report, hmerge, ⟨reason, first, rfl, hmerged⟩ | ⟨haccepted, more, hmerged⟩⟩ := b.merge_cases d
    · refine .inr ⟨?_, _, by rw [heq, hmerged]⟩
      rw [Draft.accept?_eq_none_iff, hmerge]
      exact ⟨reason, first, rfl⟩
    · refine .inl ⟨draft.contribute d, more, ?_, by rw [heq, hmerged]⟩
      rw [Draft.accept?_eq_some_iff, hmerge]
      exact ⟨haccepted, rfl⟩

theorem HasMerged.concat (h : b.HasMerged strictness ds) {draft : Draft} {more : List Warning}
    (haccept : (b.draft d.path).accept? strictness d = some draft) :
    HasMerged { b with
      drafts := b.drafts.insert d.path draft
      warnings := b.warnings ++ more
      seen := b.seen + 1 } strictness (ds ++ [d]) := by
  have hself := (h.mergedAt?_concat d).trans haccept
  have hother : ∀ p, p ≠ d.path → ds.filter (·.path = p) ≠ [] →
      mergedAt? strictness p (ds ++ [d]) = mergedAt? strictness p ds :=
    fun p hp hne => mergedAt?_concat_of_ne (Ne.symm hp) hne
  refine ⟨h.strictness_eq, by simp [h.seen], fun p => ?_, fun p => ?_⟩
  · by_cases hp : p = d.path
    · rw [hp, hself]
      rfl
    · -- Where nothing is declared yet, only the position of a first declaration has changed.
      by_cases hnil : ds.filter (·.path = p) = []
      · rw [mergedAt?_of_nil (by simp [hnil, Ne.symm hp])]
        rfl
      · rw [hother p hp hnil]
        exact h.accepted p
  · by_cases hp : p = d.path
    · subst hp
      rw [SortedMap.find?_insert_self, hself, if_neg (by simp)]
    · rw [SortedMap.find?_insert_of_ne _ hp, h.find?]
      by_cases hnil : ds.filter (·.path = p) = []
      · rw [if_pos hnil, if_pos (by simp [hnil, Ne.symm hp])]
      · rw [if_neg hnil, if_neg (by simp [hnil]), hother p hp hnil]

theorem addAll_append (b : Builder) (ds more : List Declaration) :
    b.addAll (ds ++ more) = match b.addAll ds with
      | .ok b => b.addAll more
      | .error conflict => .error conflict := by
  induction ds generalizing b with
  | nil => rfl
  | cons d rest ih =>
    rw [List.cons_append, addAll, addAll]
    cases hadd : b.add d with
    | mk next verdict =>
      cases verdict with
      | none => exact ih next
      | some conflict => rfl

theorem addAll_singleton (b : Builder) (d : Declaration) : b.addAll [d] = match b.add d with
    | (b, none) => .ok b
    | (_, some conflict) => .error conflict := by
  rw [addAll]
  cases b.add d with
  | mk next verdict => cases verdict <;> rfl

/-- A merge succeeds when it does at each path. -/
theorem addAll_outcome (strictness : Strictness) {ds : List Declaration} (hds : ∀ d ∈ ds, ¬d.IsRemoval) :
    (∃ b, (new strictness).addAll ds = .ok b ∧ b.HasMerged strictness ds) ∨
      (∃ conflict, (new strictness).addAll ds = .error conflict) ∧ ∃ p, mergedAt? strictness p ds = none := by
  induction ds using List.reverseRecOn with
  | nil => exact .inl ⟨_, rfl, rfl, rfl, fun _ => rfl, fun _ => rfl⟩
  | append_singleton ds d ih =>
    -- From the end, as a builder is compared with the declarations that it has seen.
    rw [addAll_append]
    obtain ⟨b, hadd, hmerged⟩ | ⟨⟨conflict, hadd⟩, p, hnone⟩ := ih fun d hd => hds d (List.mem_append_left _ hd)
    · have hopen := (reflects_of_addAll hadd).removal?_eq_none (fun d hd => hds d (List.mem_append_left _ hd)) d.path
      rw [hadd]
      simp only [addAll_singleton]
      obtain ⟨draft, more, haccept, heq⟩ | ⟨hrefuse, conflict, heq⟩ := b.add_outcome (hds d (by simp)) hopen
      · rw [hmerged.strictness_eq] at haccept
        rw [heq]
        exact .inl ⟨_, rfl, hmerged.concat haccept⟩
      · rw [hmerged.strictness_eq] at hrefuse
        refine .inr ⟨⟨conflict, ?_⟩, d.path, (hmerged.mergedAt?_concat d).trans hrefuse⟩
        cases hadded : b.add d with
        | mk next verdict =>
          rw [hadded] at heq
          cases heq
          rfl
    · rw [hadd]
      exact .inr ⟨⟨conflict, rfl⟩, p, mergedAt?_concat_of_none hnone d⟩

/-- Where merges come to the same at each path, but for provenances and positions, they come to the same. -/
theorem addAll_congr (r : Relabelling) (strictness : Strictness) {ds ds' : List Declaration}
    (hds : ∀ d ∈ ds, ¬d.IsRemoval) (hds' : ∀ d ∈ ds', ¬d.IsRemoval)
    (hpaths : ∀ p, ds.filter (·.path = p) = [] ↔ ds'.filter (·.path = p) = [])
    (hmerged : ∀ p, ds.filter (·.path = p) ≠ [] →
      (mergedAt? strictness p ds).map (·.relabel r) = (mergedAt? strictness p ds').map (·.relabel r)) :
    ((new strictness).addAll ds).toOption.map (fun b => Drafts.relabel r b.drafts) =
      ((new strictness).addAll ds').toOption.map (fun b => Drafts.relabel r b.drafts) := by
  -- A path at which declarations are refused has declarations, in both lists.
  have hnone : ∀ p, mergedAt? strictness p ds = none ↔ mergedAt? strictness p ds' = none := by
    intro p
    by_cases hnil : ds.filter (·.path = p) = []
    · rw [mergedAt?_of_nil hnil, mergedAt?_of_nil ((hpaths p).1 hnil)]
      simp
    · rw [← Option.map_eq_none_iff, hmerged p hnil, Option.map_eq_none_iff]
  obtain ⟨b, hadd, h⟩ | ⟨⟨conflict, hadd⟩, p, hp⟩ := addAll_outcome strictness hds <;>
    obtain ⟨b', hadd', h'⟩ | ⟨⟨conflict', hadd'⟩, p', hp'⟩ := addAll_outcome strictness hds'
  · have hdrafts : Drafts.relabel r b.drafts = Drafts.relabel r b'.drafts := by
      refine SortedMap.ext fun p => ?_
      rw [Drafts.find?_relabel, Drafts.find?_relabel, h.find?, h'.find?]
      by_cases hnil : ds.filter (·.path = p) = []
      · rw [if_pos hnil, if_pos ((hpaths p).1 hnil)]
      · rw [if_neg hnil, if_neg (mt (hpaths p).2 hnil), hmerged p hnil]
    rw [hadd, hadd']
    exact congrArg some hdrafts
  · have := h.accepted p'
    rw [(hnone p').2 hp'] at this
    cases this
  · have := h'.accepted p
    rw [(hnone p).1 hp] at this
    cases this
  · rw [hadd, hadd']
    rfl

end Builder

end Provision
