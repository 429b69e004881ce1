import Mathlib.Data.List.Perm.Basic
import Provision.SortedMap

/-! # Look-ups in sorted maps

A sorted map is known by its look-ups: entries are what is found, and each operation is described by what
is found after it.

* `mem_entries_iff`, `mem_keys_iff` — entries and keys against look-ups.
* `find?_insert_self`, `find?_insert_of_ne`, `erase_insert`, `find?_filter`, `find?_mapValues`, `find?_ofList`,
  `find?_ofList_append`, `mem_keys_of_pop?` — the operations.
* `ext` — maps that answer every look-up alike are equal; `entries_ofList` — the entries of a list that is
  sorted already.
* `findSome?_entries_eq_some`, `findSome?_entries_eq_none_iff` — what a search through the entries finds is first in
  order.
-/

namespace Provision.SortedMap

variable {α β γ : Type} {cmp : α → α → Ordering} [Std.TransCmp cmp] [Std.LawfulEqCmp cmp]

/-! ## Entries and keys -/

omit [Std.LawfulEqCmp cmp] in
theorem ne_of_lt {a b : α} (h : cmp a b = .lt) : a ≠ b := by
  rintro rfl
  cases h.symm.trans Std.ReflCmp.compare_self

theorem lookup_of_mem {k : α} {v : β} {l : List (α × β)}
    (sorted : l.Pairwise fun a b => cmp a.1 b.1 = .lt) (h : (k, v) ∈ l) :
    lookup cmp k l = some v := by
  induction l with
  | nil => cases h
  | cons head rest ih =>
    obtain ⟨k', v'⟩ := head
    rcases List.mem_cons.1 h with heq | hrest
    · cases heq
      simp [lookup, Std.ReflCmp.compare_self]
    · have hlt : cmp k' k = .lt := (List.pairwise_cons.1 sorted).1 _ hrest
      have hne : cmp k k' ≠ .eq := fun heq => ne_of_lt hlt (Std.LawfulEqCmp.eq_of_compare heq).symm
      simp [lookup, hne, ih (List.pairwise_cons.1 sorted).2 hrest]

theorem mem_entries_iff {m : SortedMap α β cmp} {k : α} {v : β} :
    (k, v) ∈ m.entries ↔ m.find? k = some v :=
  ⟨lookup_of_mem m.sorted, mem_entries_of_find?⟩

theorem mem_keys_iff {m : SortedMap α β cmp} {k : α} : k ∈ m.keys ↔ ∃ v, m.find? k = some v := by
  constructor
  · intro h
    obtain ⟨⟨k', v⟩, hmem, rfl⟩ := List.mem_map.1 h
    exact ⟨v, mem_entries_iff.1 hmem⟩
  · rintro ⟨v, hv⟩
    exact List.mem_map.2 ⟨(k, v), mem_entries_iff.2 hv, rfl⟩

theorem contains_iff {m : SortedMap α β cmp} {k : α} : m.contains k = true ↔ k ∈ m.keys := by
  rw [mem_keys_iff, contains, Option.isSome_iff_exists]

omit [Std.TransCmp cmp] [Std.LawfulEqCmp cmp] in
theorem keys_pairwise (m : SortedMap α β cmp) : m.keys.Pairwise fun a b => cmp a b = .lt :=
  List.pairwise_map.2 m.sorted

omit [Std.LawfulEqCmp cmp] in
theorem nodup_of_pairwise_lt {l : List α} (h : l.Pairwise fun a b => cmp a b = .lt) : l.Nodup :=
  h.imp ne_of_lt

omit [Std.LawfulEqCmp cmp] in
theorem keys_nodup (m : SortedMap α β cmp) : m.keys.Nodup :=
  nodup_of_pairwise_lt m.keys_pairwise

/-- Maps that answer every look-up alike are equal. -/
theorem ext {m m' : SortedMap α β cmp} (h : ∀ k, m.find? k = m'.find? k) : m = m' := by
  have hperm : m.entries.Perm m'.entries := by
    have nodup : ∀ m : SortedMap α β cmp, m.entries.Nodup := fun m =>
      m.sorted.imp fun hlt heq => ne_of_lt hlt (congrArg Prod.fst heq)
    refine (List.perm_ext_iff_of_nodup (nodup m) (nodup m')).2 ?_
    rintro ⟨k, v⟩
    rw [mem_entries_iff, mem_entries_iff, h k]
  have heq : m.entries = m'.entries := by
    refine hperm.eq_of_pairwise ?_ m.sorted m'.sorted
    intro a b _ _ hab hba
    exact absurd rfl (ne_of_lt (Std.TransCmp.lt_trans hab hba))
  cases m
  cases m'
  cases heq
  rfl

/-! ## Insertion -/

@[simp]
theorem find?_insert_self (m : SortedMap α β cmp) (k : α) (v : β) :
    (m.insert k v).find? k = some v := by
  rw [find?_insert, if_pos Std.ReflCmp.compare_self]

theorem find?_insert_of_ne {m : SortedMap α β cmp} {k k' : α} (v : β) (h : k' ≠ k) :
    (m.insert k v).find? k' = m.find? k' := by
  rw [find?_insert, if_neg fun heq => h (Std.LawfulEqCmp.eq_of_compare heq)]

/-- What is there already can be put in again. -/
theorem insert_eq_self {m : SortedMap α β cmp} {k : α} {v : β} (h : m.find? k = some v) : m.insert k v = m := by
  refine ext fun k' => ?_
  rw [find?_insert]
  split
  · rename_i heq
    rw [Std.LawfulEqCmp.eq_of_compare heq, h]
  · rfl

/-- Of two values put in at one key the later counts. -/
theorem insert_insert (m : SortedMap α β cmp) (k : α) (v v' : β) : (m.insert k v).insert k v' = m.insert k v' := by
  refine ext fun k' => ?_
  simp only [find?_insert]
  split <;> rfl

theorem mem_keys_insert {m : SortedMap α β cmp} {k k' : α} {v : β} :
    k' ∈ (m.insert k v).keys ↔ k' = k ∨ k' ∈ m.keys := by
  by_cases h : k' = k
  · subst h
    simp [mem_keys_iff]
  · simp [mem_keys_iff, find?_insert_of_ne v h, h]

/-! ## Selection -/

theorem lookup_filter (keep : α → β → Bool) (k : α) {l : List (α × β)}
    (sorted : l.Pairwise fun a b => cmp a.1 b.1 = .lt) :
    lookup cmp k (l.filter fun e => keep e.1 e.2) = (lookup cmp k l).filter (keep k) := by
  -- Both sides are the value of the one entry with this key, where there is one and it is kept.
  have hkept := sorted.filter fun e : α × β => keep e.1 e.2
  cases h : lookup cmp k l with
  | some v =>
    have hmem : (k, v) ∈ l := mem_of_lookup h
    cases hkeep : keep k v with
    | true =>
      rw [Option.filter_some, if_pos hkeep]
      exact lookup_of_mem hkept (List.mem_filter.2 ⟨hmem, hkeep⟩)
    | false =>
      rw [Option.filter_some, if_neg (by simp [hkeep])]
      cases h' : lookup cmp k (l.filter fun e => keep e.1 e.2) with
      | none => rfl
      | some w =>
        obtain ⟨hw, hkeepw⟩ := List.mem_filter.1 (mem_of_lookup h')
        rw [lookup_of_mem sorted hw] at h
        cases h
        rw [hkeep] at hkeepw
        cases hkeepw
  | none =>
    cases h' : lookup cmp k (l.filter fun e => keep e.1 e.2) with
    | none => rfl
    | some w =>
      have hw := (List.mem_filter.1 (mem_of_lookup h')).1
      rw [lookup_of_mem sorted hw] at h
      cases h

theorem find?_filter (keep : α → β → Bool) (m : SortedMap α β cmp) (k : α) :
    (m.filter keep).find? k = (m.find? k).filter (keep k) :=
  lookup_filter keep k m.sorted

@[simp]
theorem find?_erase_self (m : SortedMap α β cmp) (k : α) : (m.erase k).find? k = none := by
  rw [erase, find?_filter]
  cases m.find? k <;> simp [Std.ReflCmp.compare_self]

theorem find?_erase_of_ne {m : SortedMap α β cmp} {k k' : α} (h : k' ≠ k) :
    (m.erase k).find? k' = m.find? k' := by
  have hne : cmp k k' ≠ .eq := fun heq => h (Std.LawfulEqCmp.eq_of_compare heq).symm
  rw [erase, find?_filter]
  cases m.find? k' <;> simp [hne]

/-- What is put in where nothing was can be taken out again. -/
theorem erase_insert {m : SortedMap α β cmp} {k : α} (h : m.find? k = none) (v : β) : (m.insert k v).erase k = m := by
  refine ext fun k' => ?_
  by_cases hk : k' = k
  · rw [hk, find?_erase_self, h]
  · rw [find?_erase_of_ne hk, find?_insert_of_ne v hk]

omit [Std.TransCmp cmp] [Std.LawfulEqCmp cmp] in
theorem find?_mapValues (f : α → β → γ) (m : SortedMap α β cmp) (k : α)
    (hf : ∀ k' v, cmp k k' = .eq → f k' v = f k v) :
    (m.mapValues f).find? k = (m.find? k).map (f k) := by
  obtain ⟨entries, sorted⟩ := m
  simp only [find?, mapValues]
  clear sorted
  induction entries with
  | nil => rfl
  | cons head rest ih =>
    by_cases h : cmp k head.1 = .eq
    · simp [lookup, h, hf]
    · simp [lookup, h, ih]

/-! ## The first entry -/

omit [Std.TransCmp cmp] [Std.LawfulEqCmp cmp] in
theorem keys_of_pop? {m m' : SortedMap α β cmp} {e : α × β} (h : m.pop? = some (e, m')) :
    m.keys = e.1 :: m'.keys :=
  congrArg (List.map Prod.fst) (pop?_entries h)

omit [Std.TransCmp cmp] [Std.LawfulEqCmp cmp] in
theorem eq_or_lt_of_pop? {m m' : SortedMap α β cmp} {e : α × β} (h : m.pop? = some (e, m')) {k : α}
    (hk : k ∈ m.keys) : k = e.1 ∨ cmp e.1 k = .lt := by
  have hsorted := m.keys_pairwise
  rw [keys_of_pop? h] at hk hsorted
  exact (List.mem_cons.1 hk).imp_right fun hk => (List.pairwise_cons.1 hsorted).1 k hk

omit [Std.LawfulEqCmp cmp] in
theorem mem_keys_of_pop? {m m' : SortedMap α β cmp} {e : α × β} (h : m.pop? = some (e, m')) {k : α} :
    k ∈ m'.keys ↔ k ∈ m.keys ∧ k ≠ e.1 := by
  have hnodup := m.keys_nodup
  rw [keys_of_pop? h, List.nodup_cons] at hnodup
  rw [keys_of_pop? h, List.mem_cons]
  constructor
  · intro hk
    exact ⟨.inr hk, fun heq => hnodup.1 (heq ▸ hk)⟩
  · rintro ⟨hk, hne⟩
    exact hk.resolve_left hne

/-! ## Lists of entries -/

/-- Folding insertions leaves what was there where no entry has the key. -/
theorem find?_foldl_insert_of_not_mem {l : List (α × β)} {k : α} (h : k ∉ l.map (·.1))
    (m : SortedMap α β cmp) : (l.foldl (fun m e => m.insert e.1 e.2) m).find? k = m.find? k := by
  induction l generalizing m with
  | nil => rfl
  | cons head rest ih =>
    simp only [List.map_cons, List.mem_cons, not_or] at h
    rw [List.foldl_cons, ih h.2, find?_insert_of_ne _ h.1]

/-- In a list of entries whose keys differ, each can be found. -/
theorem find?_foldl_insert_of_mem {l : List (α × β)} (nodup : (l.map (·.1)).Nodup) {k : α} {v : β}
    (h : (k, v) ∈ l) (m : SortedMap α β cmp) :
    (l.foldl (fun m e => m.insert e.1 e.2) m).find? k = some v := by
  induction l generalizing m with
  | nil => cases h
  | cons head rest ih =>
    rw [List.map_cons, List.nodup_cons] at nodup
    rw [List.foldl_cons]
    rcases List.mem_cons.1 h with rfl | hrest
    · rw [find?_foldl_insert_of_not_mem nodup.1, find?_insert_self]
    · exact ih nodup.2 hrest _

theorem find?_ofList {l : List (α × β)} (nodup : (l.map (·.1)).Nodup) {k : α} {v : β} :
    (ofList l : SortedMap α β cmp).find? k = some v ↔ (k, v) ∈ l := by
  constructor
  · intro h
    by_cases hk : k ∈ l.map (·.1)
    · obtain ⟨⟨k', v'⟩, hmem, rfl⟩ := List.mem_map.1 hk
      rw [ofList, find?_foldl_insert_of_mem nodup hmem] at h
      cases h
      exact hmem
    · rw [ofList, find?_foldl_insert_of_not_mem hk] at h
      cases h
  · intro h
    exact find?_foldl_insert_of_mem nodup h _

@[simp]
theorem find?_ofList_nil (k : α) : (ofList [] : SortedMap α β cmp).find? k = none := rfl

theorem find?_ofList_singleton (k k' : α) (v : β) :
    (ofList [(k', v)] : SortedMap α β cmp).find? k = if cmp k k' = .eq then some v else none :=
  find?_insert empty k' k v

/-- Folding insertions, the last entry with a key holds, or else what was there. -/
theorem find?_foldl_insert (l : List (α × β)) (m : SortedMap α β cmp) (k : α) :
    (l.foldl (fun m e => m.insert e.1 e.2) m).find? k =
      ((ofList l : SortedMap α β cmp).find? k).or (m.find? k) := by
  induction l generalizing m with
  | nil => rfl
  | cons head rest ih =>
    rw [ofList, List.foldl_cons, List.foldl_cons, ih, ih, Option.or_assoc]
    apply congrArg _
    rw [find?_insert, find?_insert]
    split <;> rfl

theorem find?_ofList_append (l l' : List (α × β)) (k : α) :
    (ofList (l ++ l') : SortedMap α β cmp).find? k =
      ((ofList l' : SortedMap α β cmp).find? k).or ((ofList l : SortedMap α β cmp).find? k) := by
  rw [ofList, List.foldl_append, find?_foldl_insert]
  rfl

/-- A list of entries with ascending keys is its own map. -/
theorem entries_ofList {l : List (α × β)} (sorted : l.Pairwise fun a b => cmp a.1 b.1 = .lt) :
    (ofList l : SortedMap α β cmp).entries = l := by
  have hmap : (ofList l : SortedMap α β cmp) = ⟨l, sorted⟩ := by
    refine ext fun k => Option.ext fun v => ?_
    have hkeys : (l.map (·.1)).Pairwise fun a b => cmp a b = .lt := List.pairwise_map.2 sorted
    rw [find?_ofList (nodup_of_pairwise_lt hkeys), ← mem_entries_iff]
  rw [hmap]

/-! ## Searches -/

/-- The first entry of which a search makes something has the least key of all such entries. -/
theorem findSome?_entries_eq_some {m : SortedMap α β cmp} {f : α × β → Option γ} {c : γ}
    (h : m.entries.findSome? f = some c) : ∃ k v, m.find? k = some v ∧ f (k, v) = some c ∧
      ∀ k' v', m.find? k' = some v' → cmp k' k = .lt → f (k', v') = none := by
  obtain ⟨before, ⟨k, v⟩, after, hsplit, hfound, hbefore⟩ := List.findSome?_eq_some_iff.1 h
  have hsorted := m.sorted
  refine ⟨k, v, mem_entries_iff.1 (by simp [hsplit]), hfound, fun k' v' hfind hlt => ?_⟩
  have hmem := mem_entries_iff.2 hfind
  rw [hsplit] at hmem hsorted
  rcases List.mem_append.1 hmem with hmem | hmem
  · exact hbefore _ hmem
  rcases List.mem_cons.1 hmem with heq | hmem
  · cases heq
    exact absurd rfl (ne_of_lt hlt)
  · have hgt := (List.pairwise_cons.1 (List.pairwise_append.1 hsorted).2.1).1 _ hmem
    cases (Std.OrientedCmp.gt_of_lt hlt).symm.trans hgt

theorem findSome?_entries_eq_none_iff {m : SortedMap α β cmp} {f : α × β → Option γ} :
    m.entries.findSome? f = none ↔ ∀ k v, m.find? k = some v → f (k, v) = none := by
  rw [List.findSome?_eq_none_iff]
  exact ⟨fun h k v hfind => h _ (mem_entries_iff.2 hfind), fun h e he => h _ _ (mem_entries_iff.1 he)⟩

end Provision.SortedMap
