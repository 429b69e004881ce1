import Mathlib
import Provision.Proofs.Sequence.Queue

/-! # The least order of a graph

A graph has a sequence exactly when no path depends on itself through others, and its sequence is then
the one order in which each position holds the least path whose dependencies all stand before it.

* `Sequence.IsLeastOrder` — that property of an order; `IsLeastOrder.eq` — no two orders have it.
* `Graph.DependsOn`, `Graph.IsAcyclic`, `Graph.IsClosed` — the dependency relation on paths.
* `Places.least` — what the placing rule gives; `exists_mem_not_waiting` — without cycles it is never stuck.
* `Graph.sequence_isLeastOrder` — the statement.
-/

namespace Provision

/-! ## Orders -/

namespace Sequence

/-- All that a node depends on is among some nodes. -/
def Satisfied (before : List Node) (n : Node) : Prop :=
  ∀ p ∈ n.dependencies.keys, p ∈ before.map (·.path)

/-- All nodes, each after its dependencies, and where several could come next the one whose path has the
    least octets. -/
structure IsLeastOrder (nodes order : List Node) : Prop where
  perm : order.Perm nodes
  satisfied : ∀ before n after, order = before ++ n :: after → Satisfied before n
  least : ∀ before n after, order = before ++ n :: after →
    ∀ m ∈ after, Satisfied before m → byteOrder n.path.text m.path.text = .lt

/-- Two least orders that begin alike go on alike. -/
theorem IsLeastOrder.tail_eq {nodes order order' : List Node} (h : IsLeastOrder nodes order)
    (h' : IsLeastOrder nodes order') (rest : List Node) :
    ∀ (before rest' : List Node), order = before ++ rest → order' = before ++ rest' → rest = rest' := by
  induction rest with
  | nil =>
    intro before rest' heq heq'
    have hlength := (h.perm.trans h'.perm.symm).length_eq
    rw [heq, heq', List.append_nil, List.length_append] at hlength
    exact (List.eq_nil_of_length_eq_zero (by omega)).symm
  | cons n rest ih =>
    intro before rest' heq heq'
    have hperm : (n :: rest).Perm rest' := by
      refine (List.perm_append_left_iff before).1 ?_
      rw [← heq, ← heq']
      exact h.perm.trans h'.perm.symm
    cases rest' with
    | nil => exact absurd hperm.length_eq (by simp)
    | cons n' rest' =>
      have hn : n ∈ n' :: rest' := hperm.subset List.mem_cons_self
      have hn' : n' ∈ n :: rest := hperm.symm.subset List.mem_cons_self
      have hhead : n = n' := by
        rcases List.mem_cons.1 hn with hn | hn
        · exact hn
        rcases List.mem_cons.1 hn' with hn' | hn'
        · exact hn'.symm
        -- Each would have to be less than the other.
        have hlt := h.least before n rest heq n' hn' (h'.satisfied before n' rest' heq')
        have hgt := h'.least before n' rest' heq' n hn (h.satisfied before n rest heq)
        exact absurd rfl (SortedMap.ne_of_lt (Std.TransCmp.lt_trans hlt hgt))
      subst hhead
      rw [ih (before ++ [n]) rest' (by simp [heq]) (by simp [heq'])]

theorem IsLeastOrder.eq {nodes order order' : List Node} (h : IsLeastOrder nodes order)
    (h' : IsLeastOrder nodes order') : order = order' :=
  h.tail_eq h' order [] order' rfl rfl

/-! ## What the rule gives -/

theorem Places.perm {remaining placed left : List Node} (h : Places remaining placed left) :
    (placed ++ left).Perm remaining := by
  induction h with
  | stuck => exact .refl _
  | next _ _ _ ih => exact (ih.cons _).trans List.perm_middle.symm

theorem Places.left_waits {remaining placed left : List Node} (h : Places remaining placed left) :
    ∀ n ∈ left, Queue.inDegree left n ≠ 0 := by
  induction h with
  | stuck stuck => exact stuck
  | next _ _ _ ih => exact ih

/-- Where the dependencies of all nodes are nodes, those of a remaining node are satisfied by what was
    placed exactly when it depends on nothing that remains. -/
theorem satisfied_iff {before remaining : List Node} {n : Node}
    (nodup : ((before ++ remaining).map (·.path)).Nodup) (closed : Satisfied (before ++ remaining) n) :
    Satisfied before n ↔ Queue.inDegree remaining n = 0 := by
  rw [List.map_append, List.nodup_append] at nodup
  rw [Queue.inDegree_eq_zero_iff]
  constructor
  · intro h p hp hremaining
    exact nodup.2.2 p (h p hp) p hremaining rfl
  · intro h p hp
    have := closed p hp
    rw [List.map_append, List.mem_append] at this
    exact this.resolve_right (h p hp)

/-- The rule places in least order, whatever was placed before. -/
theorem Places.least {remaining placed left : List Node} (h : Places remaining placed left) :
    ∀ pre : List Node, ((pre ++ remaining).map (·.path)).Nodup →
      (remaining.map (·.path)).Pairwise (fun p q => TargetPath.order p q = .lt) →
      (∀ n ∈ remaining, Satisfied (pre ++ remaining) n) →
      ∀ before n after, placed = before ++ n :: after → Satisfied (pre ++ before) n ∧
        ∀ m ∈ after, Satisfied (pre ++ before) m → byteOrder n.path.text m.path.text = .lt := by
  induction h with
  | stuck =>
    intro pre _ _ _ before n after heq
    cases before <;> cases heq
  | @next front back placed left n ready first places ih =>
    intro pre nodup ascending closed before k after heq
    cases before with
    | nil =>
      cases heq
      rw [List.append_nil]
      refine ⟨(satisfied_iff nodup (closed n (by simp))).2 ready, fun m hm hsatisfied => ?_⟩
      have hmem : m ∈ front ++ back := places.perm.subset (List.mem_append_left _ hm)
      have hremaining : m ∈ front ++ n :: back :=
        (List.Sublist.append_left (List.sublist_cons_self n back) front).subset hmem
      -- It could come next as well, so it is not in front of the first that can.
      have hready := (satisfied_iff nodup (closed m hremaining)).1 hsatisfied
      have hback : m ∈ back := (List.mem_append.1 hmem).resolve_left fun hf => first m hf hready
      rw [List.map_append, List.map_cons, List.pairwise_append, List.pairwise_cons] at ascending
      rw [← TargetPath.order_eq]
      exact ascending.2.1.1 _ (List.mem_map_of_mem hback)
    | cons k' before =>
      obtain ⟨rfl, rfl⟩ := List.cons.inj heq
      have hperm : ((pre ++ [n]) ++ (front ++ back)).Perm (pre ++ (front ++ n :: back)) := by
        rw [List.append_assoc, List.singleton_append]
        exact List.perm_middle.symm.append_left pre
      have hsub : (front ++ back).Sublist (front ++ n :: back) :=
        List.Sublist.append_left (List.sublist_cons_self n back) front
      have hrest := ih (pre ++ [n])
        ((hperm.map (·.path)).nodup_iff.2 nodup) (ascending.sublist (hsub.map _))
        (fun m hm p hp => (hperm.map (·.path)).mem_iff.2 (closed m (hsub.subset hm) p hp))
        before k after rfl
      rwa [List.append_assoc, List.singleton_append] at hrest

end Sequence

/-! ## Dependencies -/

namespace Graph

/-- Whether the node at one path depends on another path. -/
def DependsOn (g : Graph) (p q : TargetPath) : Prop :=
  ∃ n ∈ g.nodes, n.path = p ∧ q ∈ n.dependencies.keys

/-- No path depends on itself, directly or through others. -/
def IsAcyclic (g : Graph) : Prop := ∀ p, ¬Relation.TransGen g.DependsOn p p

/-- Every dependency is the path of a node. -/
def IsClosed (g : Graph) : Prop := ∀ n ∈ g.nodes, Sequence.Satisfied g.nodes n

theorem nodup_paths (g : Graph) : (g.nodes.map (·.path)).Nodup :=
  SortedMap.nodup_of_pairwise_lt g.ascending

/-- Without cycles, among any nodes there is one that depends on none of them: a path that has the fewest
    paths to depend on through others. -/
theorem exists_mem_not_waiting {g : Graph} (acyclic : g.IsAcyclic) {left : List Node}
    (sub : left ⊆ g.nodes) (hne : left ≠ []) : ∃ n ∈ left, Queue.inDegree left n = 0 := by
  let Left := { p // p ∈ left.map (·.path) }
  let below (p q : Left) : Prop := Relation.TransGen g.DependsOn q.1 p.1
  have : Finite Left := (List.finite_toSet (left.map (·.path))).to_subtype
  have : IsTrans Left below := ⟨fun _ _ _ hpq hqr => hqr.trans hpq⟩
  have : Std.Irrefl below := ⟨fun p => acyclic p.1⟩
  -- On finitely many paths, depending through others is well-founded once nothing depends on itself.
  have wf : WellFounded below := Finite.wellFounded_of_trans_of_irrefl below
  obtain ⟨first, hfirst⟩ := List.exists_mem_of_ne_nil left hne
  obtain ⟨⟨p, hp⟩, -, hmin⟩ := wf.has_min Set.univ ⟨⟨_, List.mem_map_of_mem hfirst⟩, trivial⟩
  obtain ⟨n, hn, rfl⟩ := List.mem_map.1 hp
  refine ⟨n, hn, Queue.inDegree_eq_zero_iff.2 fun q hq hleft => ?_⟩
  exact hmin ⟨q, hleft⟩ trivial (.single ⟨n, sub hn, rfl, hq⟩)

/-- Where an order puts every node after its dependencies, nothing depends on itself. -/
theorem isAcyclic_of_order {g : Graph} {order : List Node} (hperm : order.Perm g.nodes)
    (hsatisfied : ∀ before n after, order = before ++ n :: after → Sequence.Satisfied before n) :
    g.IsAcyclic := by
  have nodup : (order.map (·.path)).Nodup := (hperm.map (·.path)).nodup_iff.2 g.nodup_paths
  have hstep : ∀ {p q}, g.DependsOn p q →
      (order.map (·.path)).idxOf q < (order.map (·.path)).idxOf p := by
    rintro p q ⟨n, hn, rfl, hq⟩
    obtain ⟨before, after, rfl⟩ := List.append_of_mem (hperm.symm.subset hn)
    have hbefore := hsatisfied before n after rfl q hq
    rw [List.map_append, List.map_cons, List.nodup_middle, List.nodup_cons, List.mem_append,
      not_or] at nodup
    rw [List.map_append, List.map_cons, List.idxOf_append_of_mem hbefore,
      List.idxOf_append_of_notMem nodup.1.1, List.idxOf_cons_self]
    exact Nat.lt_of_lt_of_le (List.idxOf_lt_length_of_mem hbefore) (Nat.le_add_right _ _)
  have htrans : ∀ {p q}, Relation.TransGen g.DependsOn p q →
      (order.map (·.path)).idxOf q < (order.map (·.path)).idxOf p := by
    intro p q h
    induction h with
    | single h => exact hstep h
    | tail _ h ih => exact Nat.lt_trans (hstep h) ih
  exact fun p h => Nat.lt_irrefl _ (htrans h)

/-! ## The sequence -/

/-- The nodes of the sequence are placed by rule, and there is one when none is left. -/
theorem sequence_eq (g : Graph) : ∃ placed left, Sequence.Places g.nodes placed left ∧
    left.Sublist g.nodes ∧ g.sequence = if left = [] then .ok ⟨placed, g.warnings⟩
      else .error ⟨(Sequence.trapped left).map (·.path)⟩ := by
  obtain ⟨left, hplaces, hsub, htracks⟩ :=
    Queue.run_places g.ascending (Queue.tracks_start g.nodup_paths) (List.Sublist.refl _)
  refine ⟨_, left, hplaces, hsub, ?_⟩
  have hlength := hplaces.perm.length_eq
  rw [List.length_append] at hlength
  have hvalues := htracks.values (g.ascending.sublist (hsub.map _))
  have hall : ((Queue.start g.nodes).run (Queue.dependents g.nodes)).1.length = g.nodes.length ↔
      left = [] := by
    rw [← List.length_eq_zero_iff]
    omega
  simp only [sequence, hvalues, hall]

theorem isLeastOrder_of_places {g : Graph} (closed : g.IsClosed) {placed : List Node}
    (h : Sequence.Places g.nodes placed []) : Sequence.IsLeastOrder g.nodes placed := by
  have hperm := h.perm
  rw [List.append_nil] at hperm
  have hplaced := h.least [] g.nodup_paths g.ascending closed
  exact ⟨hperm, fun before n after heq => (hplaced before n after heq).1,
    fun before n after heq => (hplaced before n after heq).2⟩

/-- A sequence is in least order, with the warnings of the graph. -/
theorem isLeastOrder_of_sequence {g : Graph} (closed : g.IsClosed) {s : Sequence}
    (h : g.sequence = .ok s) :
    Sequence.IsLeastOrder g.nodes s.nodes ∧ s.warnings = g.warnings := by
  obtain ⟨placed, left, hplaces, -, hsequence⟩ := g.sequence_eq
  by_cases hnil : left = []
  · subst hnil
    rw [hsequence, if_pos rfl] at h
    cases h
    exact ⟨isLeastOrder_of_places closed hplaces, rfl⟩
  · rw [hsequence, if_neg hnil] at h
    cases h

theorem exists_sequence {g : Graph} (acyclic : g.IsAcyclic) : ∃ s, g.sequence = .ok s := by
  obtain ⟨placed, left, hplaces, hsub, hsequence⟩ := g.sequence_eq
  have hnil : left = [] := by
    by_contra hne
    obtain ⟨n, hn, hzero⟩ := exists_mem_not_waiting acyclic hsub.subset hne
    exact hplaces.left_waits n hn hzero
  exact ⟨_, by rw [hsequence, if_pos hnil]⟩

/-- A graph whose dependencies are nodes has a sequence exactly when they have no cycle. The sequence is
    then the one least order of its nodes, each there once and as it was, with the warnings of the graph. -/
theorem sequence_isLeastOrder (g : Graph) (closed : g.IsClosed) :
    ((∃ s, g.sequence = .ok s) ↔ g.IsAcyclic) ∧
      ∀ s, g.sequence = .ok s → Sequence.IsLeastOrder g.nodes s.nodes ∧
        (∀ order, Sequence.IsLeastOrder g.nodes order → order = s.nodes) ∧
        (s.nodes.map (·.path)).Nodup ∧ s.warnings = g.warnings := by
  refine ⟨⟨?_, exists_sequence⟩, ?_⟩
  · rintro ⟨s, hs⟩
    obtain ⟨hleast, -⟩ := isLeastOrder_of_sequence closed hs
    exact isAcyclic_of_order hleast.perm hleast.satisfied
  · intro s hs
    obtain ⟨hleast, hwarnings⟩ := isLeastOrder_of_sequence closed hs
    refine ⟨hleast, fun order horder => horder.eq hleast, ?_, hwarnings⟩
    exact (hleast.perm.map (·.path)).nodup_iff.2 g.nodup_paths

/-- Two directories, the first of which requires the second. -/
def crossed : Graph where
  nodes :=
    [⟨⟨["a"], by decide⟩, .implicit .none, ∅, ⟨[(⟨["b"], by decide⟩, ())], by simp⟩, [], 0⟩,
      ⟨⟨["b"], by decide⟩, .implicit .none, ∅, ∅, [], 1⟩]
  ascending := by decide
  warnings := []

/-- The required directory comes first, although its path is the greater one. -/
theorem crossed_isLeastOrder : crossed.IsClosed ∧ crossed.IsAcyclic ∧
    ∃ s, crossed.sequence = .ok s ∧ Sequence.IsLeastOrder crossed.nodes s.nodes ∧
      s.nodes.map (·.path.text) = ["/b", "/a"] := by
  have closed : crossed.IsClosed := by unfold IsClosed Sequence.Satisfied; decide
  obtain ⟨hiff, hleast⟩ := sequence_isLeastOrder crossed closed
  have hrun : crossed.sequence.toOption.map (fun s => s.nodes.map (·.path.text)) =
      some ["/b", "/a"] := by cbv
  cases hs : crossed.sequence with
  | error e => rw [hs] at hrun; cases hrun
  | ok s =>
    rw [hs] at hrun
    exact ⟨closed, hiff.1 ⟨s, hs⟩, s, rfl, (hleast s hs).1, Option.some.inj hrun⟩

end Graph

end Provision
