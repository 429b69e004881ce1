import Provision.Compilation
import Provision.Proofs.Merge.Outcome
import Provision.Proofs.Sequence.LeastOrder

/-! # Sequences can be applied in order

Whoever applies a sequence front to back finds every containing directory in place when something is
created in it, and every other dependency too; nothing is created where something is removed.

* `Graph.IsBuilt.directory_of_needed`, `Graph.IsBuilt.not_removed_above`, `Graph.IsBuilt.met`,
  `Graph.IsBuilt.isClosed` — what a graph built from declarations has of this before it is ordered.
* `Sequence.IsApplicable` — that property of an order; `resolve_isApplicable` — every resolved sequence.
-/

namespace Provision

/-! ## Built graphs -/

namespace Graph.IsBuilt

variable {g : Graph} {ds : List Declaration} {b : Builder} {drafts : Drafts}

/-- At every path above an entry there is a directory. -/
theorem directory_of_needed (h : g.IsBuilt ds b drafts) {p : TargetPath}
    (hp : Drafts.IsNeeded b.drafts p) : ∃ m ∈ g.nodes, m.path = p ∧ m.kind = .directory := by
  obtain ⟨a, ha, rfl⟩ := Drafts.reached_ascents_iff.2 hp
  have hfree := h.free a ha
  obtain ⟨m, hm, hpath⟩ := h.exists_node (.inr hp)
  obtain ⟨draft, hcomes⟩ := h.exists_comesFrom hm
  refine ⟨m, hm, hpath, ?_⟩
  have hstate := hcomes.state
  rw [Progress.conflict?, ← hpath] at hfree
  rw [Node.kind]
  cases hs : draft.standing with
  | implicit => rw [hs] at hstate; exact hstate.elim
  | pending =>
    rw [hs] at hstate
    rw [hstate.1]
    rfl
  | removed source =>
    rw [hs] at hstate
    rw [hstate.1, Option.map_some, hs] at hfree
    cases hfree
  | entry spec source =>
    rw [hs] at hstate
    rw [hstate.1, Option.map_some, hs] at hfree
    simp only at hfree
    split at hfree
    · rename_i hkind
      rw [hstate.2]
      exact hkind
    · cases hfree

theorem not_removed_above (h : g.IsBuilt ds b drafts) {n r : Node} (hn : n ∈ g.nodes)
    (hr : r ∈ g.nodes) (hcreated : n.state ≠ .absent) (hremoved : r.state = .absent) :
    r.path ∉ n.path.ancestors := by
  intro hmem
  obtain ⟨m, hm, hpath, hkind⟩ :=
    h.directory_of_needed (h.isNeeded_of_mem_ancestors hn hcreated hmem)
  have heq : m = r := Queue.eq_of_path_eq g.nodup_paths hm hr hpath
  rw [heq, Node.kind, hremoved] at hkind
  cases hkind

theorem met (h : g.IsBuilt ds b drafts) {n : Node} (hn : n ∈ g.nodes) {q : TargetPath}
    (hq : ∃ d ∈ fromRemoval (inForce n.path ds), q ∈ d.requires) :
    ∃ m ∈ g.nodes, m.path = q ∧ m.state ≠ .absent := by
  obtain ⟨draft, hcomes⟩ := h.exists_comesFrom hn
  have hcreates := hcomes.met q ((hcomes.reflects.requires q).2 hq)
  obtain ⟨finished, hfind, hpresent⟩ := (Option.any_eq_true _ _).1 hcreates
  obtain ⟨m, hm, hnode⟩ := h.nodes.total hfind
  refine ⟨m, hm, Drafts.node_path hnode, fun habsent => ?_⟩
  obtain ⟨state, hstate, heq⟩ := Drafts.node_eq_ok_iff.1 hnode
  rw [heq] at habsent
  subst habsent
  unfold Draft.state? at hstate
  unfold Draft.isPresent at hpresent
  cases hs : finished.standing <;> simp [hs] at hstate hpresent

theorem isClosed (h : g.IsBuilt ds b drafts) : g.IsClosed := by
  intro n hn q hq
  obtain ⟨draft, hcomes⟩ := h.exists_comesFrom hn
  rcases hcomes.mem_dependencies_iff.1 hq with hrequired | ⟨-, hthere⟩
  · obtain ⟨m, hm, rfl, -⟩ := h.met hn hrequired
    exact List.mem_map_of_mem hm
  · obtain ⟨finished, hfind⟩ := Option.isSome_iff_exists.1 hthere
    obtain ⟨m, hm, hnode⟩ := h.nodes.total hfind
    exact Drafts.node_path hnode ▸ List.mem_map_of_mem hm

end Graph.IsBuilt

/-! ## Sequences -/

/-- Whether nodes that come from some declarations can be applied front to back. -/
structure Sequence.IsApplicable (nodes : List Node) (ds : List Declaration) : Prop where
  /-- No path occurs twice. -/
  nodup : (nodes.map (·.path)).Nodup
  /-- What is created comes after the directory that it is in. -/
  contained : ∀ before n after, nodes = before ++ n :: after → n.state ≠ .absent → n.path ≠ .root →
    ∃ m ∈ before, n.path.parent? = some m.path ∧ m.kind = .directory
  /-- Nothing is created where something is removed, or beneath it. -/
  clear : ∀ n ∈ nodes, ∀ r ∈ nodes, n.state ≠ .absent → r.state = .absent →
    n.path ≠ r.path ∧ r.path ∉ n.path.ancestors
  /-- Every node comes after all that it depends on. -/
  ordered : ∀ before n after, nodes = before ++ n :: after →
    ∀ q ∈ n.dependencies.keys, q ∈ before.map (·.path)
  /-- What the declarations of a node require, unless a removal made them void, is a dependency and is
      created. -/
  met : ∀ n ∈ nodes, ∀ d ∈ fromRemoval (inForce n.path ds), ∀ q ∈ d.requires,
    q ∈ n.dependencies.keys ∧ ∃ m ∈ nodes, m.path = q ∧ m.state ≠ .absent

/-- An order of a built graph that puts every node after its dependencies can be applied. -/
theorem Graph.IsBuilt.isApplicable {g : Graph} {ds : List Declaration} {b : Builder} {drafts : Drafts}
    (h : g.IsBuilt ds b drafts) {nodes : List Node} (hleast : Sequence.IsLeastOrder g.nodes nodes) :
    Sequence.IsApplicable nodes ds := by
  have hmem : ∀ {n}, n ∈ nodes ↔ n ∈ g.nodes := hleast.perm.mem_iff
  have nodup : (nodes.map (·.path)).Nodup := (hleast.perm.map (·.path)).nodup_iff.2 g.nodup_paths
  refine ⟨nodup, fun before n after heq hcreated hroot => ?_, fun n hn r hr hcreated hremoved => ?_,
    hleast.satisfied, fun n hn d hd q hq => ?_⟩
  · have hn : n ∈ g.nodes := hmem.1 (by simp [heq])
    obtain ⟨parent, hparent⟩ := Option.ne_none_iff_exists'.1 (hroot ∘ TargetPath.parent?_eq_none_iff.1)
    obtain ⟨draft, hcomes⟩ := h.exists_comesFrom hn
    obtain ⟨m, hm, rfl, hkind⟩ := h.directory_of_needed
      (h.isNeeded_of_mem_ancestors hn hcreated (TargetPath.parent?_mem_ancestors hparent))
    -- The directory is a dependency, so it comes before.
    have hbefore := hleast.satisfied before n after heq m.path
      (hcomes.mem_dependencies_iff.2 (.inr ⟨hparent, h.contains_of_mem hm⟩))
    obtain ⟨m', hm', hpath⟩ := List.mem_map.1 hbefore
    have hsame : m' = m :=
      Queue.eq_of_path_eq nodup (by simp [heq, hm']) (hmem.2 hm) hpath
    exact ⟨m, hsame ▸ hm', hparent, hkind⟩
  · refine ⟨fun hpath => hcreated ?_,
      h.not_removed_above (hmem.1 hn) (hmem.1 hr) hcreated hremoved⟩
    rw [Queue.eq_of_path_eq nodup hn hr hpath, hremoved]
  · obtain ⟨draft, hcomes⟩ := h.exists_comesFrom (hmem.1 hn)
    obtain ⟨m, hm, hpath, hcreated⟩ := h.met (hmem.1 hn) ⟨d, hd, hq⟩
    exact ⟨hcomes.mem_dependencies_iff.2 (.inl ⟨d, hd, hq⟩), m, hmem.2 hm, hpath, hcreated⟩

/-- What a list of declarations resolves to is the least order of a graph that is built from them. -/
theorem exists_isBuilt_of_resolve {strictness : Strictness} {ds : List Declaration} {s : Sequence}
    (h : resolve strictness ds = .ok s) :
    ∃ g b drafts, Graph.build strictness ds = .ok g ∧ g.IsBuilt ds b drafts ∧
      Sequence.IsLeastOrder g.nodes s.nodes := by
  unfold resolve at h
  split at h
  · cases h
  · rename_i g hbuild
    obtain ⟨b, drafts, hbuilt⟩ := Graph.exists_isBuilt hbuild
    cases hsequence : g.sequence with
    | error cycle =>
      rw [hsequence] at h
      cases h
    | ok s' =>
      rw [hsequence] at h
      cases h
      exact ⟨g, b, drafts, hbuild, hbuilt,
        (Graph.isLeastOrder_of_sequence hbuilt.isClosed hsequence).1⟩

/-- Every sequence that declarations resolve to can be applied front to back. -/
theorem resolve_isApplicable {strictness : Strictness} {ds : List Declaration} {s : Sequence}
    (h : resolve strictness ds = .ok s) : Sequence.IsApplicable s.nodes ds := by
  obtain ⟨g, b, drafts, -, hbuilt, hleast⟩ := exists_isBuilt_of_resolve h
  exact hbuilt.isApplicable hleast

/-- A file that requires one in another directory, and a removal that takes a file with it. -/
def requiring : List Declaration :=
  [⟨⟨["a", "x"], by decide⟩, .entry (.bare (.file [1])), ⟨"site", 0⟩, [⟨["b", "y"], by decide⟩],
      by decide, by decide⟩,
    ⟨⟨["c", "z"], by decide⟩, .entry (.bare .fifo), ⟨"site", 1⟩, [], by decide, by decide⟩,
    ⟨⟨["b", "y"], by decide⟩, .entry (.bare .fifo), ⟨"site", 2⟩, [], by decide, by decide⟩,
    ⟨⟨["c"], by decide⟩, .absent, ⟨"site", 3⟩, [], by decide, by decide⟩]

/-- The file waits for the other one and its directory. -/
theorem requiring_isApplicable : ∃ s, resolve .strict requiring = .ok s ∧
    Sequence.IsApplicable s.nodes requiring ∧
    s.nodes.map (·.path.text) = ["/", "/a", "/b", "/b/y", "/a/x", "/c"] := by
  have hrun : (resolve .strict requiring).toOption.map (fun s => s.nodes.map (·.path.text)) =
      some ["/", "/a", "/b", "/b/y", "/a/x", "/c"] := by cbv
  cases hs : resolve .strict requiring with
  | error e => rw [hs] at hrun; cases hrun
  | ok s =>
    rw [hs] at hrun
    exact ⟨s, rfl, resolve_isApplicable hs, Option.some.inj hrun⟩

end Provision
