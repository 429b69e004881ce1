import Provision.Proofs.Sequence.LeastOrder

/-! # The paths on cycles and between them

Two prunings find what keeps a graph from having a sequence. Placing takes away all nodes from which no cycle can be
reached; then what no node waits for is taken away, again and again, and with it all that no cycle can reach.

* `Graph.OnCycle`, `Graph.ReachesCycle`, `Graph.IsReached` — a path on a cycle, before one, behind one.
* `exists_cycle_of_forall_exists` — among finitely many things a walk that never has to stop comes to a cycle.
* `Graph.mem_left_iff` — what placing leaves; `Sequence.trapped_rounds`, `Graph.mem_trapped_iff` — what is left of that.
* `Graph.sequence_trapped` — the statement.
-/

namespace Provision

open Relation (TransGen ReflTransGen)

/-- Where from each of some things a step leads to one of them, a cycle can be reached from each. -/
theorem exists_cycle_of_forall_exists {α : Type} {r : α → α → Prop} {l : List α}
    (step : ∀ a ∈ l, ∃ b ∈ l, r a b) {a : α} (ha : a ∈ l) : ∃ b, TransGen r b b ∧ ReflTransGen r a b := by
  by_contra hno
  rw [not_exists] at hno
  let Ahead := { b // b ∈ l ∧ ReflTransGen r a b }
  let below (b c : Ahead) : Prop := TransGen r c.1 b.1
  have : Finite Ahead := ((List.finite_toSet l).subset fun _ h => h.1).to_subtype
  have : IsTrans Ahead below := ⟨fun _ _ _ hbc hcd => hcd.trans hbc⟩
  have : Std.Irrefl below := ⟨fun b hb => hno b.1 ⟨hb, b.2.2⟩⟩
  -- Without a cycle ahead the walk could not go on for ever, but the last thing on it has a step too.
  have wf : WellFounded below := Finite.wellFounded_of_trans_of_irrefl below
  obtain ⟨⟨b, hb, hahead⟩, -, hmin⟩ := wf.has_min Set.univ ⟨⟨a, ha, .refl⟩, trivial⟩
  obtain ⟨c, hc, hstep⟩ := step b hb
  exact hmin ⟨c, hc, hahead.tail hstep⟩ trivial (.single hstep)

/-! ## The second pruning -/

namespace Sequence

theorem trapped_eq (remaining : List Node) :
    trapped remaining = if (remaining.filter (isAwaited remaining)).length < remaining.length
      then trapped (remaining.filter (isAwaited remaining)) else remaining := by
  rw [trapped]
  rfl

theorem isAwaited_iff {remaining : List Node} {n : Node} :
    isAwaited remaining n ↔ ∃ m ∈ remaining, n.path ∈ m.dependencies.keys := by
  simp [isAwaited, Node.waitsFor]

/-- What each round keeps holds in the end, and then each node is awaited by another. -/
theorem trapped_rounds {motive : List Node → Prop}
    (round : ∀ remaining, motive remaining → motive (remaining.filter (isAwaited remaining))) {remaining : List Node}
    (h : motive remaining) :
    motive (trapped remaining) ∧ ∀ n ∈ trapped remaining, isAwaited (trapped remaining) n := by
  induction hlength : remaining.length using Nat.strongRecOn generalizing remaining with
  | ind length ih =>
    rw [trapped_eq]
    split
    · rename_i hlt
      exact ih _ (hlength ▸ hlt) (round remaining h) rfl
    · rename_i hall
      refine ⟨h, List.length_filter_eq_length_iff.1 ?_⟩
      exact Nat.le_antisymm (List.length_filter_le _ _) (Nat.not_lt.1 hall)

end Sequence

namespace Graph

/-! ## Paths before a cycle -/

section Cycles

variable (g : Graph)

/-- Whether a path depends on itself, directly or through others. -/
def OnCycle (p : TargetPath) : Prop := TransGen g.DependsOn p p

/-- Whether a path is on a cycle or depends on one. -/
def ReachesCycle (p : TargetPath) : Prop := ∃ q, g.OnCycle q ∧ ReflTransGen g.DependsOn p q

/-- Whether a path is on a cycle or one depends on it. -/
def IsReached (p : TargetPath) : Prop := ∃ q, g.OnCycle q ∧ ReflTransGen g.DependsOn q p

end Cycles

variable {g : Graph} {p : TargetPath}

theorem ReachesCycle.head {q : TargetPath} (h : g.DependsOn p q) (hq : g.ReachesCycle q) : g.ReachesCycle p := by
  obtain ⟨c, hc, hreach⟩ := hq
  exact ⟨c, hc, hreach.head h⟩

/-- From before a cycle a step leads to something that is before a cycle too. -/
theorem ReachesCycle.exists_dependsOn (h : g.ReachesCycle p) : ∃ q, g.DependsOn p q ∧ g.ReachesCycle q := by
  obtain ⟨c, hc, hreach⟩ := h
  obtain ⟨q, hstep, hq⟩ := TransGen.head'_iff.1 (TransGen.trans_right hreach hc)
  exact ⟨q, hstep, c, hc, hq⟩

/-- A path before a cycle is that of a node. -/
theorem ReachesCycle.exists_node (h : g.ReachesCycle p) : ∃ n ∈ g.nodes, n.path = p := by
  obtain ⟨-, ⟨n, hn, heq, -⟩, -⟩ := h.exists_dependsOn
  exact ⟨n, hn, heq⟩

/-- What is placed is not before a cycle, as all that it depends on was placed already. -/
theorem not_reachesCycle_of_places {remaining placed left : List Node} (h : Sequence.Places remaining placed left)
    (sub : remaining ⊆ g.nodes) (gone : ∀ p, p ∉ remaining.map (·.path) → ¬g.ReachesCycle p) :
    ∀ p, p ∉ left.map (·.path) → ¬g.ReachesCycle p := by
  induction h with
  | stuck => exact gone
  | @next before after placed left n ready first rest ih =>
    have hnext : ¬g.ReachesCycle n.path := by
      intro hreach
      obtain ⟨q, ⟨m, hm, heq, hq⟩, hreach⟩ := hreach.exists_dependsOn
      have hmn := Queue.eq_of_path_eq g.nodup_paths hm (sub (by simp)) heq
      exact gone q (Queue.inDegree_eq_zero_iff.1 ready q (hmn ▸ hq)) hreach
    refine ih (fun m hm => sub (Queue.mem_middle_iff.2 (.inr hm))) fun p hp => ?_
    by_cases heq : p = n.path
    · rwa [heq]
    · refine gone p fun hmem => hp ?_
      obtain ⟨m, hm, rfl⟩ := List.mem_map.1 hmem
      exact List.mem_map_of_mem ((Queue.mem_middle_iff.1 hm).resolve_left fun e => heq (congrArg Node.path e))

/-- Placing leaves the paths before a cycle, and no others. -/
theorem mem_left_iff {placed left : List Node} (h : Sequence.Places g.nodes placed left) (sub : left ⊆ g.nodes) :
    p ∈ left.map (·.path) ↔ g.ReachesCycle p := by
  constructor
  · refine exists_cycle_of_forall_exists fun p hp => ?_
    obtain ⟨n, hn, rfl⟩ := List.mem_map.1 hp
    by_contra hno
    -- It would depend on nothing that is left, and so be placed.
    refine h.left_waits n hn (Queue.inDegree_eq_zero_iff.2 fun q hq hleft => hno ⟨q, hleft, n, sub hn, rfl, hq⟩)
  · intro hreach
    by_contra hp
    refine not_reachesCycle_of_places h (List.Subset.refl _) (fun q hq hreach' => hq ?_) p hp hreach
    obtain ⟨n, hn, rfl⟩ := hreach'.exists_node
    exact List.mem_map_of_mem hn

/-! ## Paths behind a cycle -/

/-- To something behind a cycle a step leads from something that is behind a cycle too. -/
theorem IsReached.exists_dependsOn (h : g.IsReached p) : ∃ q, g.DependsOn q p ∧ g.IsReached q := by
  obtain ⟨c, hc, hreach⟩ := h
  obtain ⟨q, hq, hstep⟩ := TransGen.tail'_iff.1 (TransGen.trans_left hc hreach)
  exact ⟨q, hstep, c, hc, hq⟩

/-- Of the nodes before a cycle the second pruning leaves those that are behind one as well. -/
theorem mem_trapped_iff {left : List Node} (sub : left ⊆ g.nodes)
    (hleft : ∀ p, p ∈ left.map (·.path) ↔ g.ReachesCycle p) :
    p ∈ (Sequence.trapped left).map (·.path) ↔ g.IsReached p ∧ g.ReachesCycle p := by
  have hkeeps : ∀ n ∈ g.nodes, g.IsReached n.path ∧ g.ReachesCycle n.path → n ∈ Sequence.trapped left := by
    refine (Sequence.trapped_rounds (motive := fun remaining =>
      ∀ n ∈ g.nodes, g.IsReached n.path ∧ g.ReachesCycle n.path → n ∈ remaining) ?_ ?_).1
    · rintro remaining hkeeps n hn ⟨hreached, hreaches⟩
      obtain ⟨q, ⟨m, hm, rfl, hdep⟩, hq⟩ := hreached.exists_dependsOn
      have hmem := hkeeps m hm ⟨hq, .head ⟨m, hm, rfl, hdep⟩ hreaches⟩
      exact List.mem_filter.2 ⟨hkeeps n hn ⟨hreached, hreaches⟩, Sequence.isAwaited_iff.2 ⟨m, hmem, hdep⟩⟩
    · rintro n hn ⟨-, hreaches⟩
      obtain ⟨m, hm, heq⟩ := List.mem_map.1 ((hleft n.path).2 hreaches)
      exact Queue.eq_of_path_eq g.nodup_paths (sub hm) hn heq ▸ hm
  obtain ⟨hsub, hawaited⟩ := Sequence.trapped_rounds (motive := (· ⊆ left))
    (fun _ h => List.Subset.trans (List.filter_subset_self _) h) (List.Subset.refl left)
  constructor
  · intro hp
    obtain ⟨n, hn, rfl⟩ := List.mem_map.1 hp
    refine ⟨?_, (hleft n.path).1 (List.mem_map_of_mem (hsub hn))⟩
    -- Walking against the dependencies never has to stop among what is left, so it comes to a cycle.
    have hback : ∀ q ∈ (Sequence.trapped left).map (·.path),
        ∃ r ∈ (Sequence.trapped left).map (·.path), Function.swap g.DependsOn q r := by
      intro q hq
      obtain ⟨k, hk, rfl⟩ := List.mem_map.1 hq
      obtain ⟨m, hm, hdep⟩ := Sequence.isAwaited_iff.1 (hawaited k hk)
      exact ⟨m.path, List.mem_map_of_mem hm, m, sub (hsub hm), rfl, hdep⟩
    obtain ⟨c, hcycle, hreach⟩ := exists_cycle_of_forall_exists hback hp
    exact ⟨c, Relation.transGen_swap.1 hcycle, Relation.reflTransGen_swap.1 hreach⟩
  · intro h
    obtain ⟨n, hn, rfl⟩ := h.2.exists_node
    exact List.mem_map_of_mem (hkeeps n hn h)

/-- Behind one cycle and before another a path is on a cycle itself, or it is between two. -/
theorem isReached_and_reachesCycle_iff : g.IsReached p ∧ g.ReachesCycle p ↔
    g.OnCycle p ∨ ∃ a b, g.OnCycle a ∧ g.OnCycle b ∧ TransGen g.DependsOn a p ∧ TransGen g.DependsOn p b := by
  constructor
  · rintro ⟨⟨a, ha, hap⟩, ⟨b, hb, hpb⟩⟩
    exact .inr ⟨a, b, ha, hb, TransGen.trans_left ha hap, TransGen.trans_right hpb hb⟩
  · rintro (h | ⟨a, b, ha, hb, hap, hpb⟩)
    · exact ⟨⟨p, h, .refl⟩, ⟨p, h, .refl⟩⟩
    · exact ⟨⟨a, ha, hap.to_reflTransGen⟩, ⟨b, hb, hpb.to_reflTransGen⟩⟩

/-! ## The paths that are named -/

/-- A graph with a cycle has no sequence. The paths named instead come in ascending order, each once: those that are on a
    cycle, and those on the way from one cycle to another. What is only before cycles, or only behind them, is not named. -/
theorem sequence_trapped (g : Graph) (cyclic : ¬g.IsAcyclic) : ∃ c, g.sequence = .error c ∧
    c.paths ≠ [] ∧
    c.paths.Pairwise (fun p q => byteOrder p.text q.text = .lt) ∧
    (∀ p, p ∈ c.paths ↔ g.OnCycle p ∨
      ∃ a b, g.OnCycle a ∧ g.OnCycle b ∧ TransGen g.DependsOn a p ∧ TransGen g.DependsOn p b) ∧
    ∀ p, p ∈ c.paths ↔ g.IsReached p ∧ g.ReachesCycle p := by
  obtain ⟨placed, left, hplaces, hsub, hsequence⟩ := g.sequence_eq
  obtain ⟨p, hp⟩ : ∃ p, g.OnCycle p := by
    by_contra hno
    exact cyclic fun p hp => hno ⟨p, hp⟩
  have hleft : ∀ p, p ∈ left.map (·.path) ↔ g.ReachesCycle p := fun _ => mem_left_iff hplaces hsub.subset
  have hmem : ∀ p, p ∈ (Sequence.trapped left).map (·.path) ↔ g.IsReached p ∧ g.ReachesCycle p :=
    fun _ => mem_trapped_iff hsub.subset hleft
  have hne : left ≠ [] := by
    rintro rfl
    exact List.not_mem_nil ((hleft p).2 ⟨p, hp, .refl⟩)
  have hascending : ((Sequence.trapped left).map (·.path)).Pairwise fun p q => TargetPath.order p q = .lt := by
    refine g.ascending.sublist (List.Sublist.map _ ?_)
    exact (Sequence.trapped_rounds (motive := (List.Sublist · g.nodes))
      (fun _ h => (List.filter_sublist ..).trans h) hsub).1
  refine ⟨_, by rw [hsequence, if_neg hne], ?_, ?_, fun q => ?_, hmem⟩
  · exact List.ne_nil_of_mem ((hmem p).2 ⟨⟨p, hp, .refl⟩, p, hp, .refl⟩)
  · exact hascending.imp fun h => TargetPath.order_eq _ _ ▸ h
  · exact (hmem q).trans isReached_and_reachesCycle_iff

/-- Two pairs of directories that require each other, `/disk` and `/link`, `/user` and `/zone`. On the way from the second
    pair to the first is `/middle`; `/top` only requires a pair, and `/base` is only required by one. -/
def entangled : Graph where
  nodes :=
    [⟨⟨["base"], by decide⟩, .implicit .none, ∅, ∅, [], 0⟩,
      ⟨⟨["disk"], by decide⟩, .implicit .none, ∅,
        ⟨[(⟨["base"], by decide⟩, ()), (⟨["link"], by decide⟩, ())], by decide⟩, [], 1⟩,
      ⟨⟨["link"], by decide⟩, .implicit .none, ∅, ⟨[(⟨["disk"], by decide⟩, ())], by simp⟩, [], 2⟩,
      ⟨⟨["middle"], by decide⟩, .implicit .none, ∅, ⟨[(⟨["disk"], by decide⟩, ())], by simp⟩, [], 3⟩,
      ⟨⟨["top"], by decide⟩, .implicit .none, ∅, ⟨[(⟨["user"], by decide⟩, ())], by simp⟩, [], 4⟩,
      ⟨⟨["user"], by decide⟩, .implicit .none, ∅,
        ⟨[(⟨["middle"], by decide⟩, ()), (⟨["zone"], by decide⟩, ())], by decide⟩, [], 5⟩,
      ⟨⟨["zone"], by decide⟩, .implicit .none, ∅, ⟨[(⟨["user"], by decide⟩, ())], by simp⟩, [], 6⟩]
  ascending := by decide
  warnings := []

/-- Neither `/base`, which was placed, nor `/top`, which was not, is named. -/
theorem entangled_trapped : ¬entangled.IsAcyclic ∧ ∃ c, entangled.sequence = .error c ∧
    c.paths.map (·.text) = ["/disk", "/link", "/middle", "/user", "/zone"] ∧
    ∀ p, p ∈ c.paths ↔ entangled.IsReached p ∧ entangled.ReachesCycle p := by
  have cyclic : ¬entangled.IsAcyclic := by
    intro acyclic
    refine acyclic ⟨["disk"], by decide⟩ (.tail (.single (b := ⟨["link"], by decide⟩) ?_) ?_)
    all_goals unfold DependsOn; decide
  obtain ⟨c, hc, -, -, -, hmem⟩ := sequence_trapped entangled cyclic
  have hrun : (entangled.sequence.map fun _ => ()).mapError (fun c => c.paths.map (·.text)) =
      .error ["/disk", "/link", "/middle", "/user", "/zone"] := by cbv
  rw [hc] at hrun
  exact ⟨cyclic, c, hc, Except.error.inj hrun, hmem⟩

end Graph

end Provision
