import Provision.Compilation
import Provision.Proofs.Merge.Acceptance
import Provision.Proofs.Sequence.Trapped

/-! # What a compilation does not look at

Provenances and positions have no part in the order of a sequence, nor in an archive or a plan in text; a plan in
JSON shows the provenances, but no positions.

* `Places.unique` — the placing rule leaves no choice; `Graph.sequence_relabel` — ordering.
* `Backend.bytes_relabel` — rendering.
* `resolve_congr`, `compile_congr` — merges that come to the same but for provenances and positions compile to
  the same.
-/

namespace Provision

/-! ## Ordering -/

namespace Sequence

/-- There is one place at which the first of those with a property stands. -/
theorem first_unique {α : Type} {p : α → Prop} :
    ∀ {before after before' after' : List α} {a a' : α},
      (∀ x ∈ before, ¬p x) → p a → (∀ x ∈ before', ¬p x) → p a' →
      before ++ a :: after = before' ++ a' :: after' → before = before' ∧ a = a' ∧ after = after'
  | [], _, [], _, _, _, _, _, _, _, h => by
    cases h
    exact ⟨rfl, rfl, rfl⟩
  | [], _, x :: _, _, _, _, _, ha, hbefore', _, h => by
    cases h
    exact absurd ha (hbefore' _ List.mem_cons_self)
  | x :: _, _, [], _, _, _, hbefore, _, _, ha', h => by
    cases h
    exact absurd ha' (hbefore _ List.mem_cons_self)
  | x :: before, _, y :: before', _, _, _, hbefore, ha, hbefore', ha', h => by
    obtain ⟨rfl, htail⟩ := List.cons.inj h
    obtain ⟨rfl, hrest⟩ := first_unique (fun x hx => hbefore x (List.mem_cons_of_mem _ hx)) ha
      (fun x hx => hbefore' x (List.mem_cons_of_mem _ hx)) ha' htail
    exact ⟨rfl, hrest⟩

theorem Places.unique {remaining placed left placed' left' : List Node} (h : Places remaining placed left)
    (h' : Places remaining placed' left') : placed = placed' ∧ left = left' := by
  induction h generalizing placed' left' with
  | stuck stuck =>
    cases h' with
    | stuck => exact ⟨rfl, rfl⟩
    | next ready => exact absurd ready (stuck _ (by simp))
  | @next before after placed left n ready first rest ih =>
    generalize hremaining : before ++ n :: after = remaining at h' ready first
    cases h' with
    -- The other run cannot be stuck where this one goes on, and both take the first node that is ready.
    | stuck stuck => exact absurd ready (stuck n (by simp [← hremaining]))
    | next ready' first' rest' =>
      obtain ⟨rfl, rfl, rfl⟩ := first_unique first ready first' ready' hremaining
      obtain ⟨rfl, rfl⟩ := ih rest'
      exact ⟨rfl, rfl⟩

variable (r : Relabelling)

def relabel (s : Sequence) : Sequence := ⟨s.nodes.map (·.relabel r), s.warnings⟩

theorem inDegree_relabel (nodes : List Node) (n : Node) :
    Queue.inDegree (nodes.map (·.relabel r)) (n.relabel r) = Queue.inDegree nodes n := by
  simp only [Queue.inDegree, List.any_map]
  rfl

theorem Places.relabel {remaining placed left : List Node} (h : Places remaining placed left) :
    Places (remaining.map (·.relabel r)) (placed.map (·.relabel r)) (left.map (·.relabel r)) := by
  induction h with
  | stuck stuck =>
    refine .stuck fun n hn => ?_
    obtain ⟨m, hm, rfl⟩ := List.mem_map.1 hn
    rw [inDegree_relabel]
    exact stuck m hm
  | next ready first _ ih =>
    rw [List.map_append] at ih
    rw [List.map_append, List.map_cons, List.map_cons]
    refine .next ?_ (fun n hn => ?_) ih
    · rw [← List.map_cons, ← List.map_append, inDegree_relabel, ready]
    · obtain ⟨m, hm, rfl⟩ := List.mem_map.1 hn
      rw [← List.map_cons, ← List.map_append, inDegree_relabel]
      exact first m hm

theorem awaited_relabel (remaining : List Node) :
    (remaining.map (·.relabel r)).filter (isAwaited (remaining.map (·.relabel r))) =
      (remaining.filter (isAwaited remaining)).map (·.relabel r) := by
  rw [List.filter_map]
  refine congrArg _ (List.filter_congr fun n _ => ?_)
  simp only [Function.comp_apply, isAwaited, List.any_map]
  rfl

theorem trapped_relabel (remaining : List Node) :
    trapped (remaining.map (·.relabel r)) = (trapped remaining).map (·.relabel r) := by
  induction hlength : remaining.length using Nat.strongRecOn generalizing remaining with
  | ind length ih =>
    rw [trapped_eq, trapped_eq remaining, awaited_relabel, List.length_map, List.length_map]
    split
    · rename_i hlt
      exact ih _ (hlength ▸ hlt) _ rfl
    · rfl

end Sequence

variable (r : Relabelling)

theorem Graph.sequence_relabel (g : Graph) :
    (g.relabel r).sequence = g.sequence.map (·.relabel r) := by
  obtain ⟨placed, left, hplaces, -, hsequence⟩ := g.sequence_eq
  obtain ⟨placed', left', hplaces', -, hsequence'⟩ := (g.relabel r).sequence_eq
  obtain ⟨rfl, rfl⟩ := hplaces'.unique (hplaces.relabel r)
  rw [hsequence, hsequence']
  simp only [List.map_eq_nil_iff, Sequence.trapped_relabel, List.map_map]
  split <;> rfl

/-- Warnings have no part in the order, they are only passed on. -/
theorem Graph.sequence_warnings (g : Graph) (warnings : List Warning) :
    Graph.sequence { g with warnings } = g.sequence.map fun s => { s with warnings } := by
  rw [sequence, sequence]
  simp only
  split <;> rfl

/-! ## Rendering -/

namespace Backend

/-- Warnings are not rendered. -/
theorem bytes_congr (backend : Backend) {s s' : Sequence} (h : s.nodes = s'.nodes) :
    backend.bytes s = backend.bytes s' := by
  simp only [bytes, fault?, pieces, members, h]

theorem fault?_relabel (backend : Backend) (s : Sequence) :
    backend.fault? (s.relabel r) = backend.fault? s := by
  cases backend with
  | plan format => rfl
  | archive options =>
    simp only [fault?, Sequence.relabel, List.findSome?_map]
    rfl

theorem members_relabel (s : Sequence) :
    members (s.relabel r) = (members s).map fun m => (m.1.relabel r, m.2) := by
  rw [members, members, Sequence.relabel, List.filterMap_map, List.map_filterMap]
  refine List.filterMap_congr fun n _ => ?_
  have hskips : Archive.skips (n.relabel r) = Archive.skips n := rfl
  simp only [Function.comp_apply, hskips]
  split
  · rfl
  · rw [Option.map_map]
    rfl

/-- Only a plan in JSON shows where declarations were made. -/
theorem bytes_relabel (backend : Backend) (h : backend = .plan .json → ∀ l, r.history l = l)
    (s : Sequence) : backend.bytes (s.relabel r) = backend.bytes s := by
  have hpieces : backend.pieces (s.relabel r) = backend.pieces s := by
    cases backend with
    | archive options =>
      simp only [pieces, members_relabel, List.flatMap_map]
      rfl
    | plan format =>
      cases format with
      | text =>
        simp only [pieces, Sequence.relabel, List.flatMap_map]
        rfl
      | json =>
        have hobject : ∀ n : Node, Plan.object (n.relabel r) = Plan.object n := by
          intro n
          simp only [Plan.object, Node.relabel, h rfl]
          rfl
        simp only [pieces, Plan.document, Sequence.relabel, List.map_map, Function.comp_def, hobject]
  rw [bytes, bytes, fault?_relabel, hpieces]

end Backend

/-! ## Compilations -/

/-- The nodes of a resolved sequence, but for provenances and positions, are a matter of what the merge comes to
    but for these. -/
theorem nodes_resolve (strictness : Strictness) (ds : List Declaration) :
    (resolve strictness ds).toOption.map (fun s => s.nodes.map (·.relabel r)) =
      (((Builder.new strictness).addAll ds).toOption.map fun b => Drafts.relabel r b.drafts).bind fun drafts =>
        ((drafts.finish []).toOption.bind fun g => g.sequence.toOption).map (·.nodes) := by
  rw [resolve, Graph.build]
  cases hadd : (Builder.new strictness).addAll ds with
  | error conflict => rfl
  | ok b =>
    have hopen := (Drafts.isOpen_new strictness).addAll hadd
    have hfinish := Drafts.finish_relabel r hopen []
    simp only [Except.toOption, Option.map_some, Option.bind_some, Builder.finish, hfinish]
    rw [Drafts.finish_warnings]
    cases Drafts.finish b.drafts [] with
    | error e => rfl
    | ok g =>
      simp only [Except.map, Except.mapError, Graph.sequence_warnings, Option.bind_some, Graph.sequence_relabel]
      cases g.sequence <;> rfl

theorem resolve_congr {strictness strictness' : Strictness} {ds ds' : List Declaration}
    (h : ((Builder.new strictness).addAll ds).toOption.map (fun b => Drafts.relabel r b.drafts) =
      ((Builder.new strictness').addAll ds').toOption.map (fun b => Drafts.relabel r b.drafts)) :
    (resolve strictness ds).toOption.map (fun s => s.nodes.map (·.relabel r)) =
      (resolve strictness' ds').toOption.map (fun s => s.nodes.map (·.relabel r)) := by
  rw [nodes_resolve, nodes_resolve, h]

/-- The output is a matter of the nodes of the sequence, but for provenances and positions. -/
theorem output_compile (strictness : Strictness) (backend : Backend)
    (hjson : backend = .plan .json → ∀ l, r.history l = l) (ds : List Declaration) :
    (compile strictness backend ds).toOption.map (fun a => (a.bytes, a.fingerprint)) =
      ((resolve strictness ds).toOption.map fun s => s.nodes.map (·.relabel r)).bind fun nodes =>
        (backend.bytes ⟨nodes, []⟩).toOption.map fun bytes => (bytes, fingerprint bytes) := by
  rw [compile]
  cases resolve strictness ds with
  | error e => rfl
  | ok s =>
    have hbytes : backend.bytes ⟨s.nodes.map (·.relabel r), []⟩ = backend.bytes s := by
      rw [← backend.bytes_relabel r hjson s]
      exact backend.bytes_congr rfl
    simp only [Except.toOption, Option.map_some, Option.bind_some, hbytes]
    cases backend.bytes s <;> rfl

theorem compile_congr {strictness strictness' : Strictness} {ds ds' : List Declaration} (backend : Backend)
    (hjson : backend = .plan .json → ∀ l, r.history l = l)
    (h : (resolve strictness ds).toOption.map (fun s => s.nodes.map (·.relabel r)) =
      (resolve strictness' ds').toOption.map (fun s => s.nodes.map (·.relabel r))) :
    (compile strictness backend ds).toOption.map (fun a => (a.bytes, a.fingerprint)) =
      (compile strictness' backend ds').toOption.map (fun a => (a.bytes, a.fingerprint)) := by
  rw [output_compile r strictness backend hjson, output_compile r strictness' backend hjson, h]

end Provision
