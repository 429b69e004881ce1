import Mathlib.Data.List.Nodup
import Provision.Proofs.SortedMap
import Provision.Sequence

/-! # Placing nodes by counters

The queue keeps a counter for each node and a set of those whose counter has come to nothing. Here it is
shown to do what a far simpler rule says: of the nodes that remain, place the first that depends on none
of them.

* `Places` — that rule, as a relation between what remains, what is placed and what is left.
* `Tracks` — the invariant: the counter of each node is the number of remaining nodes it depends on, and
  the ready set is exactly the remaining nodes whose counter is zero.
* `Tracks.next` — one round keeps it; `run_places` — the queue follows the rule.
-/

namespace Provision

namespace Sequence

/-- Placing by rule: `Places remaining placed left`. The first node that depends on none of those that
    remain comes next, until there is none. -/
inductive Places : List Node → List Node → List Node → Prop
  | stuck {left : List Node} (stuck : ∀ n ∈ left, Queue.inDegree left n ≠ 0) : Places left [] left
  | next {before after placed left : List Node} {n : Node}
      (ready : Queue.inDegree (before ++ n :: after) n = 0)
      (first : ∀ m ∈ before, Queue.inDegree (before ++ n :: after) m ≠ 0)
      (rest : Places (before ++ after) placed left) : Places (before ++ n :: after) (n :: placed) left

end Sequence

namespace Queue

open Sequence (Places)

/-! ## Counters -/

theorem inDegree_eq_zero_iff {nodes : List Node} {n : Node} :
    inDegree nodes n = 0 ↔ ∀ p ∈ n.dependencies.keys, p ∉ nodes.map (·.path) := by
  simp [inDegree, List.filter_eq_nil_iff]

theorem length_filter_or {α : Type} [DecidableEq α] {l : List α} {a : α} (keep : α → Bool)
    (nodup : l.Nodup) (ha : keep a = false) :
    (l.filter fun x => decide (a = x) || keep x).length =
      (l.filter keep).length + if a ∈ l then 1 else 0 := by
  induction l with
  | nil => rfl
  | cons x l ih =>
    obtain ⟨hx, hl⟩ := List.nodup_cons.1 nodup
    by_cases h : a = x
    · subst h
      have : (l.filter fun x => decide (a = x) || keep x) = l.filter keep := by
        apply List.filter_congr
        intro y hy
        have hne : a ≠ y := fun e => hx (e ▸ hy)
        simp [hne]
      simp [ha, this]
    · have hhead : (decide (a = x) || keep x) = keep x := by rw [decide_eq_false h, Bool.false_or]
      have hmem : a ∈ x :: l ↔ a ∈ l := List.mem_cons.trans (or_iff_right h)
      rw [List.filter_cons, List.filter_cons, hhead, if_congr hmem rfl rfl]
      cases keep x with
      | false => exact ih hl
      | true =>
        rw [if_pos rfl, if_pos rfl, List.length_cons, List.length_cons, ih hl]
        omega

/-- Each node fewer that remains takes one from the counters of those that depend on it. -/
theorem inDegree_remove {before after : List Node} {n : Node}
    (fresh : n.path ∉ (before ++ after).map (·.path)) (m : Node) :
    inDegree (before ++ n :: after) m =
      inDegree (before ++ after) m + if n.path ∈ m.dependencies.keys then 1 else 0 := by
  have hfresh : (before ++ after).any (fun k => decide (k.path = n.path)) = false := by
    rw [List.any_eq_false]
    intro m hm heq
    exact fresh (of_decide_eq_true heq ▸ List.mem_map_of_mem hm)
  have := length_filter_or (fun p => (before ++ after).any fun k => decide (k.path = p))
    m.dependencies.keys_nodup hfresh
  -- Each dependency occurs once, so taking one path away takes at most one from the count.
  rw [inDegree, inDegree, ← this]
  refine congrArg List.length (List.filter_congr fun p _ => ?_)
  simp only [List.any_append, List.any_cons]
  cases before.any _ <;> cases after.any _ <;> simp

/-! ## Releasing -/

theorem release_counts (q : Queue) (path p : TargetPath) :
    (q.release path).counts.find? p =
      if p = path then (q.counts.find? p).map (· - 1) else q.counts.find? p := by
  by_cases hp : p = path
  · subst hp
    rw [if_pos rfl]
    unfold release
    split
    · rename_i h
      rw [h]
      rfl
    · rename_i count h
      rw [h]
      exact SortedMap.find?_insert_self _ _ _
  · rw [if_neg hp]
    unfold release
    split
    · rfl
    · exact SortedMap.find?_insert_of_ne _ hp

theorem release_ready (q : Queue) (path p : TargetPath) :
    p ∈ (q.release path).ready.keys ↔ p ∈ q.ready.keys ∨
      p = path ∧ (∃ count, q.counts.find? p = some count ∧ count - 1 = 0) ∧ p ∈ q.slots.keys := by
  unfold release
  split
  · rename_i h
    constructor
    · exact .inl
    · rintro (hp | ⟨rfl, ⟨count, hcount, _⟩, _⟩)
      · exact hp
      · rw [h] at hcount
        cases hcount
  · rename_i count h
    simp only [SortedMap.contains_iff]
    split
    · rename_i hzero
      rw [SortedMap.mem_keys_insert]
      constructor
      · rintro (rfl | hp)
        · exact .inr ⟨rfl, ⟨count, h, hzero.1⟩, hzero.2⟩
        · exact .inl hp
      · rintro (hp | ⟨rfl, -, -⟩)
        · exact .inr hp
        · exact .inl rfl
    · rename_i hzero
      constructor
      · exact .inl
      · rintro (hp | ⟨rfl, ⟨count', hcount, hone⟩, hslot⟩)
        · exact hp
        · rw [h] at hcount
          cases hcount
          exact absurd ⟨hone, hslot⟩ hzero

theorem foldl_release_counts {paths : List TargetPath} (nodup : paths.Nodup) (q : Queue)
    (p : TargetPath) :
    (paths.foldl release q).counts.find? p =
      if p ∈ paths then (q.counts.find? p).map (· - 1) else q.counts.find? p := by
  induction paths generalizing q with
  | nil => rfl
  | cons path paths ih =>
    obtain ⟨hpath, hpaths⟩ := List.nodup_cons.1 nodup
    rw [List.foldl_cons, ih hpaths, release_counts]
    by_cases hp : p = path
    · subst hp
      simp [hpath]
    · simp [hp]

theorem foldl_release_ready {paths : List TargetPath} (nodup : paths.Nodup) (q : Queue)
    (p : TargetPath) :
    p ∈ (paths.foldl release q).ready.keys ↔ p ∈ q.ready.keys ∨
      p ∈ paths ∧ (∃ count, q.counts.find? p = some count ∧ count - 1 = 0) ∧ p ∈ q.slots.keys := by
  induction paths generalizing q with
  | nil => simp
  | cons path paths ih =>
    obtain ⟨hpath, hpaths⟩ := List.nodup_cons.1 nodup
    rw [List.foldl_cons, ih hpaths, release_ready, release_counts, release_slots]
    by_cases hp : p = path
    · subst hp
      simp [hpath]
    · simp [hp]

/-! ## The invariant -/

/-- The queue knows what remains: the slots hold it, the counter of every node is the number of remaining
    nodes it depends on, and the ready ones are those that remain with nothing to wait for. -/
structure Tracks (nodes remaining : List Node) (q : Queue) : Prop where
  slot_iff : ∀ {p n}, q.slots.find? p = some n ↔ n ∈ remaining ∧ n.path = p
  count : ∀ n ∈ nodes, q.counts.find? n.path = some (inDegree remaining n)
  ready_iff : ∀ {p}, p ∈ q.ready.keys ↔ ∃ n ∈ remaining, n.path = p ∧ inDegree remaining n = 0

theorem eq_of_path_eq {nodes : List Node} (nodup : (nodes.map (·.path)).Nodup) {n m : Node}
    (hn : n ∈ nodes) (hm : m ∈ nodes) (h : n.path = m.path) : n = m :=
  List.inj_on_of_nodup_map nodup hn hm h

theorem tracks_start {nodes : List Node} (nodup : (nodes.map (·.path)).Nodup) :
    Tracks nodes nodes (start nodes) where
  slot_iff := by
    intro p n
    have hkeys : ((nodes.map fun n => (n.path, n)).map (·.1)).Nodup := by
      rwa [List.map_map]
    rw [start, SortedMap.find?_ofList hkeys]
    simp only [List.mem_map, Prod.mk.injEq]
    constructor
    · rintro ⟨m, hm, rfl, rfl⟩
      exact ⟨hm, rfl⟩
    · rintro ⟨hn, rfl⟩
      exact ⟨n, hn, rfl, rfl⟩
  count := by
    intro n hn
    have hkeys : ((nodes.map fun n => (n.path, inDegree nodes n)).map (·.1)).Nodup := by
      rwa [List.map_map]
    exact (SortedMap.find?_ofList hkeys).2 (List.mem_map_of_mem hn)
  ready_iff := by
    intro p
    have hkeys : (((nodes.filter fun n => inDegree nodes n = 0).map fun n => (n.path, ())).map
        (·.1)).Nodup := by
      rw [List.map_map]
      exact nodup.sublist (List.filter_sublist.map _)
    rw [SortedMap.mem_keys_iff]
    constructor
    · rintro ⟨v, hv⟩
      obtain ⟨n, hn, heq⟩ := List.mem_map.1 ((SortedMap.find?_ofList hkeys).1 hv)
      cases heq
      obtain ⟨hmem, hzero⟩ := List.mem_filter.1 hn
      exact ⟨n, hmem, rfl, by simpa using hzero⟩
    · rintro ⟨n, hn, rfl, hzero⟩
      refine ⟨(), (SortedMap.find?_ofList hkeys).2 (List.mem_map_of_mem ?_)⟩
      exact List.mem_filter.2 ⟨hn, by simpa using hzero⟩

theorem dependents_nodup {nodes : List Node} (nodup : (nodes.map (·.path)).Nodup)
    (path : TargetPath) : (dependents nodes path).Nodup :=
  nodup.sublist (List.filter_sublist.map _)

theorem mem_dependents_iff {nodes : List Node} (nodup : (nodes.map (·.path)).Nodup) {n : Node}
    (hn : n ∈ nodes) {path : TargetPath} :
    n.path ∈ dependents nodes path ↔ path ∈ n.dependencies.keys := by
  constructor
  · intro h
    obtain ⟨m, hm, heq⟩ := List.mem_map.1 h
    obtain ⟨hmem, hdep⟩ := List.mem_filter.1 hm
    rw [← eq_of_path_eq nodup hmem hn heq]
    simpa using hdep
  · intro h
    exact List.mem_map_of_mem (List.mem_filter.2 ⟨hn, by simpa using h⟩)

/-- No counter is lowered below nothing: what depends on a remaining node counts it. -/
theorem Tracks.count_pos {nodes remaining : List Node} {q : Queue} (h : Tracks nodes remaining q)
    (nodup : (nodes.map (·.path)).Nodup) {n : Node} (hn : n ∈ remaining) {p : TargetPath}
    (hp : p ∈ dependents nodes n.path) : ∃ count, q.counts.find? p = some count ∧ 0 < count := by
  obtain ⟨m, hm, rfl⟩ := List.mem_map.1 hp
  have hmem := (List.mem_filter.1 hm).1
  refine ⟨_, h.count m hmem, Nat.pos_of_ne_zero fun hzero => ?_⟩
  have hdep := (mem_dependents_iff nodup hmem).1 hp
  exact inDegree_eq_zero_iff.1 hzero _ hdep (List.mem_map_of_mem hn)

theorem mem_middle_iff {before after : List Node} {n m : Node} :
    m ∈ before ++ n :: after ↔ m = n ∨ m ∈ before ++ after := by
  simp only [List.mem_append, List.mem_cons]
  tauto

theorem path_not_mem {before after : List Node} {n : Node}
    (nodup : ((before ++ n :: after).map (·.path)).Nodup) : n.path ∉ (before ++ after).map (·.path) := by
  rw [List.map_append, List.map_cons, List.nodup_middle, List.nodup_cons,
    ← List.map_append] at nodup
  exact nodup.1

/-- The counter of what depends on a node goes down by one with that node. -/
theorem inDegree_next {nodes before after : List Node} {n m : Node}
    (nodup : (nodes.map (·.path)).Nodup) (fresh : n.path ∉ (before ++ after).map (·.path))
    (hm : m ∈ nodes) :
    inDegree (before ++ n :: after) m =
      inDegree (before ++ after) m + if m.path ∈ dependents nodes n.path then 1 else 0 := by
  rw [inDegree_remove fresh m]
  simp only [mem_dependents_iff nodup hm]

/-- Without the node that is placed, the slots hold what remains. -/
theorem Tracks.find?_erase_slots {nodes before after : List Node} {n : Node} {q : Queue}
    (h : Tracks nodes (before ++ n :: after) q) (fresh : n.path ∉ (before ++ after).map (·.path))
    {p : TargetPath} {m : Node} :
    (q.slots.erase n.path).find? p = some m ↔ m ∈ before ++ after ∧ m.path = p := by
  by_cases hp : p = n.path
  · subst hp
    rw [SortedMap.find?_erase_self]
    simp only [reduceCtorEq, false_iff, not_and]
    exact fun hm heq => fresh (heq ▸ List.mem_map_of_mem hm)
  · rw [SortedMap.find?_erase_of_ne hp, h.slot_iff, mem_middle_iff]
    constructor
    · rintro ⟨rfl | hm, rfl⟩
      · exact absurd rfl hp
      · exact ⟨hm, rfl⟩
    · rintro ⟨hm, rfl⟩
      exact ⟨.inr hm, rfl⟩

/-- One round: the node that was ready is taken out, and those that depend on it count one fewer. -/
theorem Tracks.next {nodes before after : List Node} {n : Node} {q : Queue} {ready : PathSet}
    (h : Tracks nodes (before ++ n :: after) q) (nodup : (nodes.map (·.path)).Nodup)
    (sub : (before ++ n :: after).Sublist nodes) (hpop : q.ready.pop? = some ((n.path, ()), ready)) :
    Tracks nodes (before ++ after) ((dependents nodes n.path).foldl release
      { q with slots := q.slots.erase n.path, ready }) := by
  have fresh := path_not_mem (nodup.sublist (sub.map _))
  refine ⟨?slots, ?counts, ?ready⟩
  case slots =>
    intro p m
    rw [foldl_release_slots]
    exact h.find?_erase_slots fresh
  case counts =>
    intro m hm
    have hcount := inDegree_next nodup fresh hm
    rw [foldl_release_counts (dependents_nodup nodup _)]
    by_cases hdep : m.path ∈ dependents nodes n.path
    · rw [if_pos hdep] at hcount
      rw [if_pos hdep, h.count m hm, hcount]
      rfl
    · rw [if_neg hdep] at hcount
      rw [if_neg hdep, h.count m hm, hcount]
      rfl
  case ready =>
    intro p
    rw [foldl_release_ready (dependents_nodup nodup _)]
    simp only [SortedMap.mem_keys_iff (m := q.slots.erase n.path), h.find?_erase_slots fresh,
      SortedMap.mem_keys_of_pop? hpop]
    constructor
    · rintro (⟨hp, hne⟩ | ⟨hdep, ⟨count, hcnt, hone⟩, m, hm, rfl⟩)
      · -- It was ready before, and is not the one that was placed.
        obtain ⟨m, hm, rfl, hzero⟩ := h.ready_iff.1 hp
        have hm' := (mem_middle_iff.1 hm).resolve_left fun e => hne (congrArg Node.path e)
        have hcount := inDegree_next nodup fresh (sub.subset hm)
        exact ⟨m, hm', rfl, by omega⟩
      · -- Its counter has just come to nothing.
        have hnode : m ∈ nodes := sub.subset (mem_middle_iff.2 (.inr hm))
        have hcount := inDegree_next nodup fresh hnode
        rw [if_pos hdep] at hcount
        rw [h.count m hnode, Option.some.injEq] at hcnt
        exact ⟨m, hm, rfl, by omega⟩
    · rintro ⟨m, hm, rfl, hzero⟩
      have hm' : m ∈ before ++ n :: after := mem_middle_iff.2 (.inr hm)
      have hnode : m ∈ nodes := sub.subset hm'
      have hcount := inDegree_next nodup fresh hnode
      by_cases hdep : m.path ∈ dependents nodes n.path
      · rw [if_pos hdep] at hcount
        exact .inr ⟨hdep, ⟨_, h.count m hnode, by omega⟩, m, hm, rfl⟩
      · rw [if_neg hdep] at hcount
        refine .inl ⟨h.ready_iff.2 ⟨m, hm', rfl, by omega⟩, fun e => fresh ?_⟩
        exact e ▸ List.mem_map_of_mem hm

/-! ## The run -/

theorem run_of_none {dependents : TargetPath → List TargetPath} {q : Queue}
    (hpop : q.ready.pop? = none) : q.run dependents = ([], q) := by
  rw [run]
  split
  · rfl
  · rename_i hpop'
    rw [hpop] at hpop'
    cases hpop'

theorem run_of_ready {dependents : TargetPath → List TargetPath} {q : Queue} {path : TargetPath}
    {ready : PathSet} {n : Node} (hpop : q.ready.pop? = some ((path, ()), ready))
    (hslot : q.slots.find? path = some n) :
    let next := ((dependents path).foldl release
      { q with slots := q.slots.erase path, ready }).run dependents
    q.run dependents = (n :: next.1, next.2) := by
  intro next
  rw [run]
  split
  · rename_i hpop'
    rw [hpop] at hpop'
    cases hpop'
  · rename_i hpop'
    rw [hpop] at hpop'
    cases hpop'
    split
    · rename_i hslot'
      rw [hslot] at hslot'
      cases hslot'
    · rename_i hslot'
      rw [hslot] at hslot'
      cases hslot'
      rfl

/-- The queue follows the rule, and ends knowing what is left. -/
theorem run_places {nodes remaining : List Node} {q : Queue}
    (ascending : (nodes.map (·.path)).Pairwise fun p q => TargetPath.order p q = .lt)
    (h : Tracks nodes remaining q) (sub : remaining.Sublist nodes) :
    ∃ left, Places remaining (q.run (dependents nodes)).1 left ∧ left.Sublist nodes ∧
      Tracks nodes left (q.run (dependents nodes)).2 := by
  have nodup := SortedMap.nodup_of_pairwise_lt ascending
  induction q using run.induct (dependents nodes) generalizing remaining with
  | case1 q hpop =>
    rw [run_of_none hpop]
    refine ⟨remaining, .stuck fun n hn hzero => ?_, sub, h⟩
    have := h.ready_iff.2 ⟨n, hn, rfl, hzero⟩
    simp [SortedMap.keys, SortedMap.pop?_eq_none hpop] at this
  | case2 q path ready hpop hslot ih =>
    -- A path that is ready has its node in a slot.
    have hpath : path ∈ q.ready.keys := by
      simp [SortedMap.keys, SortedMap.pop?_entries hpop]
    obtain ⟨n, hn, heq, _⟩ := h.ready_iff.1 hpath
    rw [h.slot_iff.2 ⟨hn, heq⟩] at hslot
    cases hslot
  | case3 q path ready hpop n hslot _ _ _ ih =>
    obtain ⟨hn, rfl⟩ := h.slot_iff.1 hslot
    obtain ⟨before, after, rfl⟩ := List.append_of_mem hn
    have sub' : (before ++ after).Sublist nodes :=
      (List.Sublist.append_left (List.sublist_cons_self n after) before).trans sub
    obtain ⟨left, hplaces, hleft, htracks⟩ := ih (h.next nodup sub hpop) sub'
    have hready : inDegree (before ++ n :: after) n = 0 := by
      have hmem : n.path ∈ q.ready.keys := SortedMap.keys_of_pop? hpop ▸ List.mem_cons_self
      obtain ⟨m, hm, heq, hzero⟩ := h.ready_iff.1 hmem
      rwa [eq_of_path_eq nodup (sub.subset hm) (sub.subset hn) heq] at hzero
    have hfirst : ∀ m ∈ before, inDegree (before ++ n :: after) m ≠ 0 := by
      intro m hm hzero
      -- It would be ready with a lesser path, and the queue would have taken it.
      have hmem : m.path ∈ q.ready.keys :=
        h.ready_iff.2 ⟨m, List.mem_append_left _ hm, rfl, hzero⟩
      have hlt : TargetPath.order m.path n.path = .lt := by
        have hascending := ascending.sublist (sub.map _)
        rw [List.map_append, List.pairwise_append] at hascending
        exact hascending.2.2 _ (List.mem_map_of_mem hm) _ (List.mem_map_of_mem List.mem_cons_self)
      rcases SortedMap.eq_or_lt_of_pop? hpop hmem with heq | hgt
      · exact SortedMap.ne_of_lt hlt heq
      · exact SortedMap.ne_of_lt (Std.TransCmp.lt_trans hlt hgt) rfl
    rw [run_of_ready hpop hslot]
    exact ⟨left, .next hready hfirst hplaces, hleft, htracks⟩

/-- The nodes in slots are those that are left, in the order of their paths. -/
theorem Tracks.values {nodes left : List Node} {q : Queue}
    (ascending : (left.map (·.path)).Pairwise fun p q => TargetPath.order p q = .lt)
    (h : Tracks nodes left q) : q.slots.values = left := by
  have nodup := SortedMap.nodup_of_pairwise_lt ascending
  have hkeys : (left.map fun n => (n.path, n)).Pairwise fun a b =>
      TargetPath.order a.1 b.1 = .lt := by
    rw [List.pairwise_map] at ascending ⊢
    exact ascending
  have hslots : q.slots = .ofList (left.map fun n => (n.path, n)) := by
    refine SortedMap.ext fun p => Option.ext fun n => ?_
    exact h.slot_iff.trans (tracks_start nodup).slot_iff.symm
  rw [hslots, SortedMap.values, SortedMap.entries_ofList hkeys, List.map_map]
  exact List.map_id left

end Queue

end Provision
