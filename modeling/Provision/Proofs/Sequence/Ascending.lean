import Provision.Proofs.Merge.Requirements

/-! # Sequences in path order

A directory precedes all that is in it, so the hierarchy alone never asks for another order than that of the paths.
Requirements do, but only those of a path that comes later.

* `Graph.IsBackward` — whether every dependency has the lesser path; `IsBackward.isAcyclic` — there is then no cycle.
* `Graph.sequence_of_isBackward` — the sequence is then the nodes as the graph has them.
* `Graph.IsBuilt.isBackward` — what is asked of declarations for that; `resolve_ascending` — the statement.
-/

namespace Provision

namespace Graph

/-- Whether all that a path depends on has a path with lesser octets. -/
def IsBackward (g : Graph) : Prop := ∀ p q, g.DependsOn p q → TargetPath.order q p = .lt

theorem IsBackward.isAcyclic {g : Graph} (h : g.IsBackward) : g.IsAcyclic := by
  have hlt : ∀ {p q}, Relation.TransGen g.DependsOn p q → TargetPath.order q p = .lt := by
    intro p q hpq
    induction hpq with
    | single hdep => exact h _ _ hdep
    | tail _ hdep ih => exact Std.TransCmp.lt_trans (h _ _ hdep) ih
  intro p hp
  exact absurd rfl (SortedMap.ne_of_lt (hlt hp))

/-- Where all dependencies point backward, no node waits for one behind it. -/
theorem IsBackward.isLeastOrder {g : Graph} (h : g.IsBackward) (closed : g.IsClosed) :
    Sequence.IsLeastOrder g.nodes g.nodes := by
  refine ⟨.refl _, fun before n after heq q hq => ?_, fun before n after heq m hm _ => ?_⟩
  · have hn : n ∈ g.nodes := by simp [heq]
    have hback : TargetPath.order q n.path = .lt := h n.path q ⟨n, hn, rfl, hq⟩
    obtain ⟨m, hm, rfl⟩ := List.mem_map.1 (closed n hn q hq)
    have hascending := g.ascending
    rw [heq] at hm hascending
    rw [List.map_append, List.map_cons, List.pairwise_append, List.pairwise_cons] at hascending
    rcases List.mem_append.1 hm with hm | hm
    · exact List.mem_map_of_mem hm
    · -- It would have to be the node itself or one with a greater path.
      rcases List.mem_cons.1 hm with rfl | hm
      · exact absurd rfl (SortedMap.ne_of_lt hback)
      · have hforward := hascending.2.1.1 m.path (List.mem_map_of_mem hm)
        exact absurd rfl (SortedMap.ne_of_lt (Std.TransCmp.lt_trans hback hforward))
  · have hascending := g.ascending
    rw [heq, List.map_append, List.map_cons, List.pairwise_append, List.pairwise_cons] at hascending
    rw [← TargetPath.order_eq]
    exact hascending.2.1.1 m.path (List.mem_map_of_mem hm)

theorem sequence_of_isBackward {g : Graph} (closed : g.IsClosed) (h : g.IsBackward) :
    g.sequence = .ok ⟨g.nodes, g.warnings⟩ := by
  obtain ⟨⟨nodes, warnings⟩, hs⟩ := exists_sequence h.isAcyclic
  obtain ⟨hleast, hwarnings⟩ := isLeastOrder_of_sequence closed hs
  obtain rfl : nodes = g.nodes := hleast.eq (h.isLeastOrder closed)
  obtain rfl : warnings = g.warnings := hwarnings
  exact hs

/-- A node depends on the directory that it is in and on what is required for it, so only the latter may point forward. -/
theorem IsBuilt.isBackward {g : Graph} {ds : List Declaration} {b : Builder} {drafts : Drafts}
    (h : g.IsBuilt ds b drafts) (backward : ∀ d ∈ ds, ∀ q ∈ d.requires, TargetPath.order q d.path = .lt) :
    g.IsBackward := by
  rintro p q ⟨n, hn, rfl, hq⟩
  obtain ⟨draft, hcomes⟩ := h.exists_comesFrom hn
  rcases hcomes.mem_dependencies_iff.1 hq with ⟨d, hd, hrequired⟩ | ⟨hparent, -⟩
  · obtain ⟨hpath, before, after, hsplit, -⟩ := mem_fromRemoval_inForce_iff.1 hd
    have hmem : d ∈ ds := by simp [hsplit]
    exact hpath ▸ backward d hmem q hrequired
  · exact TargetPath.order_lt_of_mem_ancestors (TargetPath.parent?_mem_ancestors hparent)

/-! ## The statement -/

/-- Where every path that is required has lesser octets than the one that requires it, what is built can be put in order,
    and the order is that of the octets of the paths: the nodes as the graph has them, with its warnings. -/
theorem resolve_ascending {strictness : Strictness} {ds : List Declaration} {g : Graph}
    (backward : ∀ d ∈ ds, ∀ q ∈ d.requires, byteOrder q.text d.path.text = .lt)
    (h : build strictness ds = .ok g) :
    ∃ s, g.sequence = .ok s ∧ resolve strictness ds = .ok s ∧ s.nodes = g.nodes ∧ s.warnings = g.warnings ∧
      (s.nodes.map (·.path.text)).Pairwise (fun p q => byteOrder p q = .lt) := by
  obtain ⟨b, drafts, hbuilt⟩ := exists_isBuilt h
  have hsequence := sequence_of_isBackward hbuilt.isClosed
    (hbuilt.isBackward fun d hd q hq => TargetPath.order_eq q d.path ▸ backward d hd q hq)
  refine ⟨⟨g.nodes, g.warnings⟩, hsequence, ?_, rfl, rfl, ?_⟩
  · rw [resolve, h]
    simp only [hsequence]
    rfl
  · rw [List.pairwise_map]
    exact (List.pairwise_map.1 g.ascending).imp fun hlt => TargetPath.order_eq _ _ ▸ hlt

/-- A pipe in a directory, and one beside the directory that stands between the two and is required by the former. -/
def docked : List Declaration :=
  [⟨⟨["dock", "a"], by decide⟩, .entry (.bare .fifo), ⟨"port", 0⟩, [⟨["dock-b"], by decide⟩], by decide, by decide⟩,
    ⟨⟨["dock-b"], by decide⟩, .entry (.bare .fifo), ⟨"port", 1⟩, [⟨["dock"], by decide⟩], by decide, by decide⟩]

/-- The order declared, the directory filled in and the requirements leave the order of the paths as it is. -/
theorem docked_ascending : ∃ g, build .strict docked = .ok g ∧
    (∀ d ∈ docked, ∀ q ∈ d.requires, byteOrder q.text d.path.text = .lt) ∧
    ∃ s, g.sequence = .ok s ∧ s.nodes.map (·.path.text) = ["/", "/dock", "/dock-b", "/dock/a"] := by
  have backward : ∀ d ∈ docked, ∀ q ∈ d.requires, byteOrder q.text d.path.text = .lt := by
    simp only [← TargetPath.order_eq]
    decide
  have hrun : (build .strict docked).toOption.map (fun g => g.nodes.map (·.path.text)) =
      some ["/", "/dock", "/dock-b", "/dock/a"] := by cbv
  cases hbuild : build .strict docked with
  | error e => rw [hbuild] at hrun; cases hrun
  | ok g =>
    rw [hbuild] at hrun
    obtain ⟨s, hs, -, hnodes, -, -⟩ := resolve_ascending backward hbuild
    exact ⟨g, rfl, backward, s, hs, hnodes ▸ Option.some.inj hrun⟩

end Graph

end Provision
