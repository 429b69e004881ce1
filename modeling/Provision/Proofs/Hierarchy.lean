import Provision.Path

/-! # The hierarchy of paths

The paths above a path are those whose segments its own go on from. `ancestors`, `isBeneath` and the
order of paths all agree with that.

* `mem_ancestors_iff` — being above is being a proper prefix of segments.
* `ancestors_tail` — above a path that is above another come the paths above the former.
* `isBeneath_iff` — the comparison of texts says the same.
* `order_lt_of_mem_ancestors` — a directory precedes all that is in it.
-/

namespace Provision.TargetPath

/-! ## Ancestors -/

@[ext]
theorem ext {p q : TargetPath} (h : p.segments = q.segments) : p = q := by
  cases p; cases q; cases h; rfl

@[simp]
theorem segments_root : root.segments = [] := rfl

theorem segments_of_parent? {p q : TargetPath} (h : p.parent? = some q) :
    p.segments ≠ [] ∧ q.segments = p.segments.dropLast := by
  unfold parent? at h
  split at h
  · cases h
  · rename_i hne
    cases h
    exact ⟨hne, rfl⟩

theorem parent?_eq_none_iff {p : TargetPath} : p.parent? = none ↔ p = root := by
  unfold parent?
  split
  · rename_i h
    exact ⟨fun _ => ext h, fun _ => rfl⟩
  · rename_i h
    exact ⟨fun e => (by cases e), fun e => absurd (congrArg segments e) h⟩

theorem ancestors_of_parent? {p q : TargetPath} (h : p.parent? = some q) :
    p.ancestors = q :: q.ancestors := by
  rw [ancestors]
  split
  · rename_i h'
    rw [h] at h'
    cases h'
  · rename_i r h'
    rw [h] at h'
    cases h'
    rfl

@[simp]
theorem ancestors_root : root.ancestors = [] := by
  rw [ancestors]
  rfl

theorem dropLast_prefix_iff {α : Type} {l m : List α} (hne : l ≠ []) :
    (m <+: l ∧ m ≠ l) ↔ m <+: l.dropLast := by
  obtain ⟨front, last, rfl⟩ : ∃ front last, l = front ++ [last] :=
    ⟨l.dropLast, l.getLast hne, (List.dropLast_concat_getLast hne).symm⟩
  rw [List.dropLast_concat, List.prefix_concat_iff]
  constructor
  · rintro ⟨rfl | h, hne'⟩
    · exact absurd rfl hne'
    · exact h
  · intro h
    refine ⟨.inr h, fun e => ?_⟩
    have := h.length_le
    rw [e, List.length_append, List.length_singleton] at this
    omega

/-- A path is above another when the segments of the other go on from its own. -/
theorem mem_ancestors_iff {p q : TargetPath} :
    q ∈ p.ancestors ↔ q.segments <+: p.segments ∧ q ≠ p := by
  induction p using ancestors.induct with
  | case1 p h =>
    rw [parent?_eq_none_iff.1 h]
    simp only [ancestors_root, List.not_mem_nil, segments_root, List.prefix_nil, false_iff, not_and]
    exact fun hq hne => hne (ext hq)
  | case2 p parent h ih =>
    obtain ⟨hne, hparent⟩ := segments_of_parent? h
    have hseg : q ≠ p ↔ q.segments ≠ p.segments := not_congr ⟨congrArg segments, ext⟩
    rw [ancestors_of_parent? h, List.mem_cons, ih, hseg, dropLast_prefix_iff hne, hparent]
    constructor
    · rintro (rfl | ⟨hq, _⟩)
      · exact hparent ▸ List.prefix_rfl
      · exact hq
    · intro hq
      by_cases heq : q = parent
      · exact .inl heq
      · exact .inr ⟨hq, heq⟩

theorem not_mem_ancestors_self (p : TargetPath) : p ∉ p.ancestors :=
  fun h => (mem_ancestors_iff.1 h).2 rfl

theorem mem_ancestors_trans {p q r : TargetPath} (hq : q ∈ p.ancestors) (hr : r ∈ q.ancestors) :
    r ∈ p.ancestors := by
  rw [mem_ancestors_iff] at *
  refine ⟨hr.1.trans hq.1, ?_⟩
  rintro rfl
  exact hr.2 (ext (hr.1.eq_of_length_le hq.1.length_le))

theorem parent?_mem_ancestors {p q : TargetPath} (h : p.parent? = some q) : q ∈ p.ancestors := by
  rw [ancestors_of_parent? h]
  exact List.mem_cons_self

/-- Above a path that is above another come the paths above the former, in the same order. -/
theorem ancestors_tail {p q : TargetPath} {before after : List TargetPath}
    (h : p.ancestors = before ++ q :: after) : after = q.ancestors := by
  induction p using ancestors.induct generalizing before with
  | case1 p hp =>
    rw [parent?_eq_none_iff.1 hp, ancestors_root] at h
    cases before <;> cases h
  | case2 p parent hp ih =>
    rw [ancestors_of_parent? hp] at h
    cases before with
    | nil => cases h; rfl
    | cons first before => exact ih (List.cons.inj h).2

theorem ancestors_nodup (p : TargetPath) : p.ancestors.Nodup := by
  induction p using ancestors.induct with
  | case1 p h => rw [parent?_eq_none_iff.1 h, ancestors_root]; exact .nil
  | case2 p parent h ih =>
    rw [ancestors_of_parent? h]
    exact List.nodup_cons.2 ⟨not_mem_ancestors_self parent, ih⟩

/-! ## Being beneath -/

/-- The pieces between separators are those of the standard library. -/
theorem pieces_eq_splitOn {α : Type} [DecidableEq α] (sep : α) (cs : List α) : pieces sep cs = cs.splitOn sep := by
  induction cs with
  | nil => rfl
  | cons c rest ih =>
    rw [pieces, List.splitOn_cons_eq_if_modifyHead, ih]
    by_cases hc : c = sep
    · rw [if_pos hc, if_pos (beq_iff_eq.2 hc)]
    · rw [if_neg hc, if_neg (mt beq_iff_eq.1 hc)]
      cases h : rest.splitOn sep with
      | nil => exact absurd h (List.splitOn_ne_nil _ _)
      | cons first more => rfl

theorem pieces_append_sep_append {α : Type} [DecidableEq α] (sep : α) (a b : List α) :
    pieces sep (a ++ sep :: b) = pieces sep a ++ pieces sep b := by
  simp only [pieces_eq_splitOn, List.splitOn_append_cons_self]

/-- The pieces of the text of a path other than the root: its segments, after nothing. -/
theorem pieces_text {p : TargetPath} (h : p ≠ root) :
    pieces '/' p.text.toList = [] :: p.segments.map String.toList := by
  have hne : p.segments ≠ [] := fun e => h (ext e)
  rw [text, if_neg hne, toList_join_segments,
    pieces_join_segments hne fun s hs => (p.valid s hs).2.2.2.1]

theorem toList_text {p : TargetPath} (h : p ≠ root) :
    p.text.toList = p.segments.flatMap fun s => '/' :: s.toList := by
  have hne : p.segments ≠ [] := fun e => h (ext e)
  rw [text, if_neg hne, toList_join_segments]

/-- A path is beneath another when its text goes on with a separator from the text of the other. -/
theorem text_prefix_iff {p q : TargetPath} (hp : p ≠ root) (hq : q ≠ root) :
    q.text.toList ++ ['/'] <+: p.text.toList ↔ q.segments <+: p.segments ∧ q ≠ p := by
  constructor
  · rintro ⟨rest, hrest⟩
    have hpieces : pieces '/' p.text.toList = pieces '/' q.text.toList ++ pieces '/' rest := by
      rw [← hrest, List.append_assoc]
      exact pieces_append_sep_append '/' q.text.toList rest
    rw [pieces_text hp, pieces_text hq, List.cons_append, List.cons.injEq] at hpieces
    have hbegins : q.segments.map String.toList <+: p.segments.map String.toList :=
      ⟨_, hpieces.2.symm⟩
    refine ⟨?_, ?_⟩
    · have := hbegins.map String.ofList
      simpa using this
    · rintro rfl
      exact pieces_ne_nil '/' rest (List.self_eq_append_right.1 hpieces.2)
  · rintro ⟨⟨rest, hrest⟩, hne⟩
    rw [toList_text hp, toList_text hq, ← hrest, List.flatMap_append]
    cases rest with
    | nil => exact absurd (ext (by simpa using hrest)) hne
    | cons s rest =>
      rw [List.flatMap_cons, List.cons_append]
      exact ⟨s.toList ++ rest.flatMap fun s => '/' :: s.toList, by simp⟩

/-- Being beneath, as told from the texts, is having the other path above. -/
theorem isBeneath_iff {p q : TargetPath} : p.isBeneath q = true ↔ q ∈ p.ancestors := by
  rw [mem_ancestors_iff]
  simp only [isBeneath, isRoot, Bool.and_eq_true, decide_eq_true_eq, Bool.or_eq_true,
    List.isEmpty_iff, List.isPrefixOf_iff_prefix]
  by_cases hq : q = root
  · simp [hq, eq_comm]
  · have hqs : q.segments ≠ [] := fun e => hq (ext e)
    by_cases hp : p = root
    · subst hp
      -- The text of the root is a lone separator, too short to go on from anything.
      have hlen : 0 < q.text.toList.length := by
        rw [toList_text hq]
        cases hs : q.segments with
        | nil => exact absurd hs hqs
        | cons s rest => simp
      simp only [segments_root, List.prefix_nil, hqs, false_and, false_or, iff_false, not_and]
      intro _ h
      have hroot : root.text.toList.length = 1 := rfl
      have := h.length_le
      rw [List.length_append, List.length_singleton, hroot] at this
      omega
    · rw [text_prefix_iff hp hq]
      simp only [hqs, false_or]
      exact ⟨fun h => h.2, fun h => ⟨h.2.symm, h⟩⟩

/-! ## Order -/

theorem compareSpelled_of_prefix {l m : List String} (h : m <+: l) (hne : m ≠ l) :
    compareSpelled m l = .lt := by
  induction m generalizing l with
  | nil =>
    cases l with
    | nil => exact absurd rfl hne
    | cons s l => rfl
  | cons t m ih =>
    obtain ⟨rest, rfl⟩ := h
    rw [List.cons_append, compareSpelled, if_pos rfl]
    exact ih ⟨rest, rfl⟩ fun e => hne (by rw [List.cons_append, ← e])

/-- A directory precedes all that is in it. -/
theorem order_lt_of_mem_ancestors {p q : TargetPath} (h : q ∈ p.ancestors) : order q p = .lt :=
  have ⟨hbegins, hne⟩ := mem_ancestors_iff.1 h
  compareSpelled_of_prefix hbegins fun e => hne (ext e)

end Provision.TargetPath
