import Mathlib
import Provision.Proofs.Merge.Ascent
import Provision.Proofs.Merge.Reflection

/-! # The outcome of a merge

A graph is what its declarations in force say, path by path, in whichever order creations, adjustments and
removals came.

* `Drafts.IsNodes` — the nodes of finished drafts, and what was checked on the way.
* `Graph.IsBuilt` — all that is known of a graph once it is built from declarations.
* `Graph.Merges` — what a graph has at a path; `Graph.build_merges` — what every built graph has.
-/

namespace Provision

/-! ## Nodes -/

namespace Drafts

variable {drafts : Drafts}

theorem node_eq_ok_iff {p : TargetPath} {draft : Draft} {n : Node} :
    drafts.node p draft = .ok n ↔ ∃ state, draft.state? = some state ∧
      n = { path := p, state
            xattrs := draft.xattrs.mapValues fun _ v => v.1
            dependencies := drafts.dependencies p draft
            provenance := draft.provenance
            order := draft.order } := by
  unfold node
  cases draft.state? with
  | none => simp
  | some state => simp [eq_comm]

theorem mem_nodes_iff {l : List (TargetPath × Draft)}
    {r : { r : List Node // r.map (·.path) = l.map (·.1) }} (h : drafts.nodes l = .ok r) (n : Node) :
    n ∈ r.1 ↔ ∃ p draft, (p, draft) ∈ l ∧ drafts.node p draft = .ok n := by
  induction l with
  | nil =>
    cases h
    simp
  | cons head rest ih =>
    obtain ⟨p, draft⟩ := head
    rw [nodes] at h
    split at h
    · cases h
    · cases h
    · rename_i first ns hfirst hns
      cases h
      rw [List.mem_cons, ih hns]
      constructor
      · rintro (rfl | ⟨q, draft', hmem, hq⟩)
        · exact ⟨p, draft, List.mem_cons_self, hfirst⟩
        · exact ⟨q, draft', List.mem_cons_of_mem _ hmem, hq⟩
      · rintro ⟨q, draft', hmem, hq⟩
        rcases List.mem_cons.1 hmem with heq | hmem
        · cases heq
          rw [hfirst] at hq
          exact .inl (by cases hq; rfl)
        · exact .inr ⟨q, draft', hmem, hq⟩

/-- The nodes of finished drafts: one for each draft, whose requirements are all met. -/
structure IsNodes (drafts : Drafts) (nodes : List Node) : Prop where
  /-- Every requirement is created. -/
  met : ∀ {p draft q}, drafts.find? p = some draft → q ∈ draft.requires.map (·.1) → drafts.creates q
  total : ∀ {p draft}, drafts.find? p = some draft → ∃ n ∈ nodes, drafts.node p draft = .ok n
  sound : ∀ {n}, n ∈ nodes →
    ∃ draft, drafts.find? n.path = some draft ∧ drafts.node n.path draft = .ok n

theorem creates_of_missing? (h : drafts.missing? = none) {p q : TargetPath} {draft : Draft}
    (hfind : drafts.find? p = some draft) (hq : q ∈ draft.requires.map (·.1)) : drafts.creates q := by
  obtain ⟨⟨required, source⟩, hmem, rfl⟩ := List.mem_map.1 hq
  have hdraft := List.findSome?_eq_none_iff.1 h (p, draft) (SortedMap.mem_entries_of_find? hfind)
  have hrequired := List.findSome?_eq_none_iff.1 hdraft (required, source) hmem
  simpa using hrequired

theorem exists_nodes_node {l : List (TargetPath × Draft)}
    {r : { r : List Node // r.map (·.path) = l.map (·.1) }} (h : drafts.nodes l = .ok r)
    {p : TargetPath} {draft : Draft} (hmem : (p, draft) ∈ l) : ∃ n, drafts.node p draft = .ok n := by
  induction l with
  | nil => cases hmem
  | cons head rest ih =>
    rw [nodes.eq_def] at h
    simp only at h
    split at h
    · cases h
    · cases h
    · rename_i first ns hfirst hns
      rcases List.mem_cons.1 hmem with rfl | hmem
      · exact ⟨first, hfirst⟩
      · exact ih hns hmem

theorem isNodes_of_graph {warnings : List Warning} {g : Graph} (h : drafts.graph warnings = .ok g) :
    drafts.IsNodes g.nodes := by
  unfold graph at h
  split at h
  · cases h
  · rename_i hmissing
    split at h
    · cases h
    · rename_i nodes hpaths hnodes
      cases h
      refine ⟨fun hfind hq => creates_of_missing? hmissing hfind hq, fun hfind => ?_, fun hn => ?_⟩
      · have hmem := SortedMap.mem_entries_of_find? hfind
        obtain ⟨n, hn⟩ := exists_nodes_node hnodes hmem
        exact ⟨n, (mem_nodes_iff hnodes n).2 ⟨_, _, hmem, hn⟩, hn⟩
      · obtain ⟨p, draft, hmem, hnode⟩ := (mem_nodes_iff hnodes _).1 hn
        rw [node_path hnode]
        exact ⟨draft, SortedMap.mem_entries_iff.1 hmem, hnode⟩

theorem mem_keys_required {l : List (TargetPath × Provenance)} {q : TargetPath} {m : PathSet} :
    q ∈ (l.foldl (fun m (p, _) => m.insert p ()) m).keys ↔ q ∈ l.map (·.1) ∨ q ∈ m.keys := by
  induction l generalizing m with
  | nil => simp
  | cons head rest ih =>
    rw [List.foldl_cons, ih, SortedMap.mem_keys_insert, List.map_cons, List.mem_cons]
    constructor
    · rintro (h | rfl | h)
      · exact .inl (.inr h)
      · exact .inl (.inl rfl)
      · exact .inr h
    · rintro ((rfl | h) | h)
      · exact .inr (.inl rfl)
      · exact .inl h
      · exact .inr (.inr h)

/-- A node depends on what it requires, and on the directory it is in. -/
theorem mem_dependencies_iff {p q : TargetPath} {draft : Draft} :
    q ∈ (drafts.dependencies p draft).keys ↔
      q ∈ draft.requires.map (·.1) ∨ p.parent? = some q ∧ drafts.contains q := by
  have hrequired : q ∈ (draft.requires.foldl (fun m (p, _) => m.insert p ()) (∅ : PathSet)).keys ↔
      q ∈ draft.requires.map (·.1) := by
    rw [mem_keys_required]
    exact or_iff_left List.not_mem_nil
  unfold dependencies
  cases hparent : p.parent? with
  | none => simpa using hrequired
  | some parent =>
    by_cases hthere : drafts.contains parent
    · simp only [if_pos hthere]
      rw [SortedMap.mem_keys_insert, hrequired]
      constructor
      · rintro (rfl | h)
        · exact .inr ⟨rfl, hthere⟩
        · exact .inl h
      · rintro (h | ⟨heq, -⟩)
        · exact .inr h
        · exact .inl (Option.some.inj heq).symm
    · simp only [if_neg hthere]
      rw [hrequired]
      constructor
      · exact .inl
      · rintro (h | ⟨heq, h⟩)
        · exact h
        · exact absurd (Option.some.inj heq ▸ h) hthere

end Drafts

/-- The last entry, each field of its permissions as the last permission-set that sets it has it. -/
def mergedSpec? (ds : List Declaration) : Option EntrySpec :=
  (lastOf Declaration.entry? ds).map fun last =>
    { last with
      permissions :=
        { mode := (lastSet ds).mode.or last.permissions.mode
          owner := (lastSet ds).owner.or last.permissions.owner
          group := (lastSet ds).group.or last.permissions.group } }

/-! ## Built graphs -/

namespace Graph

theorem find?_eq_some_iff {g : Graph} {p : TargetPath} {n : Node} :
    g.find? p = some n ↔ n ∈ g.nodes ∧ n.path = p := by
  constructor
  · intro h
    exact ⟨List.mem_of_find?_eq_some h, by simpa using List.find?_some h⟩
  · rintro ⟨hn, rfl⟩
    have hsome : (g.find? n.path).isSome := List.find?_isSome.2 ⟨n, hn, by simp⟩
    obtain ⟨n', hn'⟩ := Option.isSome_iff_exists.1 hsome
    have hpath : n'.path = n.path := by simpa using List.find?_some hn'
    have nodup := SortedMap.nodup_of_pairwise_lt g.ascending
    rw [hn', List.inj_on_of_nodup_map nodup (List.mem_of_find?_eq_some hn') hn hpath]

/-- What is known of a graph, with the builder that was finished and its drafts with directories filled
    in. -/
structure IsBuilt (g : Graph) (ds : List Declaration) (b : Builder) (drafts : Drafts) : Prop where
  reflects : b.Reflects ds
  filled : Drafts.Filled b.drafts drafts
  /-- Only directories are above entries. -/
  free : ∀ a ∈ Progress.ascents b.drafts, Progress.conflict? b.drafts a = none
  nodes : drafts.IsNodes g.nodes

/-- The builder that took all declarations was finished. -/
theorem exists_addAll_of_build {strictness : Strictness} {ds : List Declaration} {g : Graph}
    (h : build strictness ds = .ok g) : ∃ b, (Builder.new strictness).addAll ds = .ok b ∧ b.finish = .ok g := by
  rw [build] at h
  split at h
  · cases h
  · rename_i b hadd
    exact ⟨b, hadd, h⟩

theorem exists_isBuilt {strictness : Strictness} {ds : List Declaration} {g : Graph}
    (h : build strictness ds = .ok g) : ∃ b drafts, g.IsBuilt ds b drafts := by
  unfold build at h
  split at h
  · cases h
  · rename_i b hadd
    have hreflects := Builder.reflects_of_addAll hadd
    have plain : ∀ {p draft}, b.drafts.find? p = some draft → draft.standing ≠ .implicit := by
      intro p draft hfind hs
      have := (hreflects.draft hfind).1.standing
      rw [hs] at this
      exact this
    rw [Builder.finish, Drafts.finish] at h
    split at h
    · cases h
    · rename_i drafts hfilledIn
      obtain ⟨hfilled, hfree⟩ := Drafts.of_filledIn plain hfilledIn
      cases hgraph : drafts.graph b.warnings with
      | error dangling =>
        rw [hgraph] at h
        cases h
      | ok g' =>
        rw [hgraph] at h
        cases h
        exact ⟨b, drafts, hreflects, hfilled, hfree, Drafts.isNodes_of_graph hgraph⟩

/-- A node as what a draft comes to, once directories are filled in. -/
structure ComesFrom (n : Node) (draft : Draft) (ds : List Declaration) (b : Builder)
    (drafts : Drafts) : Prop where
  reflects : draft.Reflects (inForce n.path ds)
  xattrs : ∀ name, n.xattrs.find? name = (draft.xattrs.find? name).map (·.1)
  dependencies : n.dependencies = drafts.dependencies n.path draft
  /-- Every requirement is created. -/
  met : ∀ q ∈ draft.requires.map (·.1), drafts.creates q
  state : match draft.standing with
    | .entry spec _ =>
      b.drafts.find? n.path = some draft ∧
        n.state = .declared { spec with permissions := spec.permissions.overlaid draft.overlay }
    | .removed _ => b.drafts.find? n.path = some draft ∧ n.state = .absent
    | .pending => n.state = .implicit draft.overlay ∧
        (Drafts.IsNeeded b.drafts n.path ∨ n.path = .root ∧ inForce n.path ds ≠ [])
    | .implicit => False

namespace ComesFrom

variable {n : Node} {draft : Draft} {ds : List Declaration} {b : Builder} {drafts : Drafts}

/-- The three kinds of node, with what each tells of the declarations in force. -/
theorem state_cases (h : ComesFrom n draft ds b drafts) :
    (n.state = .absent ∧ ∃ d ∈ inForce n.path ds, d.IsRemoval) ∨
    (∀ d ∈ inForce n.path ds, ¬d.IsRemoval) ∧
      ((∃ last source, draft.standing = .entry last source ∧ b.drafts.find? n.path = some draft ∧
          lastOf Declaration.entry? (inForce n.path ds) = some last ∧
          n.state = .declared
            { last with permissions := last.permissions.overlaid (lastSet (inForce n.path ds)) }) ∨
        (Drafts.IsNeeded b.drafts n.path ∨ n.path = .root ∧ inForce n.path ds ≠ []) ∧
          lastOf Declaration.entry? (inForce n.path ds) = none ∧
          n.state = .implicit (lastSet (inForce n.path ds))) := by
  have hstanding := h.reflects.standing
  have hstate := h.state
  have hoverlay := h.reflects.overlay
  cases hs : draft.standing with
  | implicit =>
    rw [hs] at hstanding
    exact hstanding.elim
  | removed source =>
    rw [hs] at hstanding hstate
    exact .inl ⟨hstate.2, hstanding⟩
  | pending =>
    rw [hs] at hstanding hstate
    rw [fromRemoval_eq_self hstanding.2] at hoverlay
    exact .inr ⟨hstanding.2, .inr ⟨hstate.2, hstanding.1, by rw [hstate.1, hoverlay]⟩⟩
  | entry last source =>
    rw [hs] at hstanding hstate
    rw [fromRemoval_eq_self hstanding.2] at hoverlay
    refine .inr ⟨hstanding.2, .inl ⟨last, source, rfl, hstate.1, hstanding.1, ?_⟩⟩
    rw [hstate.2, hoverlay]

theorem absent_iff (h : ComesFrom n draft ds b drafts) :
    n.state = .absent ↔ ∃ d ∈ inForce n.path ds, d.IsRemoval := by
  obtain ⟨hstate, hremoval⟩ | ⟨hnone, hcreated⟩ := h.state_cases
  · exact iff_of_true hstate hremoval
  · refine iff_of_false ?_ fun ⟨d, hd, hremoval⟩ => hnone d hd hremoval
    obtain ⟨last, source, -, -, -, hstate⟩ | ⟨-, -, hstate⟩ := hcreated <;> simp [hstate]

/-- Unless a node is a removal, all declarations in force count. -/
theorem fromRemoval_eq (h : ComesFrom n draft ds b drafts) (hn : n.state ≠ .absent) :
    fromRemoval (inForce n.path ds) = inForce n.path ds :=
  fromRemoval_eq_self fun d hd hremoval => hn (h.absent_iff.2 ⟨d, hd, hremoval⟩)

theorem declared_iff (h : ComesFrom n draft ds b drafts) (spec : EntrySpec) :
    n.state = .declared spec ↔
      mergedSpec? (inForce n.path ds) = some spec ∧ ∀ d ∈ inForce n.path ds, ¬d.IsRemoval := by
  obtain ⟨hstate, d, hd, hremoval⟩ | ⟨hnone, hcreated⟩ := h.state_cases
  · exact iff_of_false (by simp [hstate]) fun hspec => hspec.2 d hd hremoval
  · obtain ⟨last, source, -, -, hlast, hstate⟩ | ⟨-, hlast, hstate⟩ := hcreated
    · rw [hstate, mergedSpec?, hlast]
      exact ⟨fun e => ⟨by cases e; rfl, hnone⟩, fun hspec => by cases hspec.1; rfl⟩
    · exact iff_of_false (by simp [hstate]) (by simp [mergedSpec?, hlast])

theorem implicit_iff (h : ComesFrom n draft ds b drafts) (permissions : Permissions) :
    n.state = .implicit permissions ↔
      (∀ d ∈ inForce n.path ds, d.entry? = none ∧ ¬d.IsRemoval) ∧
        permissions = lastSet (inForce n.path ds) := by
  obtain ⟨hstate, d, hd, hremoval⟩ | ⟨hnone, hcreated⟩ := h.state_cases
  · exact iff_of_false (by simp [hstate]) fun hall => (hall.1 d hd).2 hremoval
  · obtain ⟨last, source, -, -, hlast, hstate⟩ | ⟨-, hlast, hstate⟩ := hcreated
    · obtain ⟨d, hd, hentry⟩ := exists_of_lastOf hlast
      apply iff_of_false (by simp [hstate])
      intro hall
      rw [(hall.1 d hd).1] at hentry
      cases hentry
    · rw [hstate, NodeState.implicit.injEq, eq_comm]
      exact (and_iff_right fun d hd => ⟨lastOf_eq_none_iff.1 hlast d hd, hnone d hd⟩).symm

theorem entry_of_declared (h : ComesFrom n draft ds b drafts) {spec : EntrySpec}
    (hn : n.state = .declared spec) :
    ∃ last source, draft.standing = .entry last source ∧ b.drafts.find? n.path = some draft := by
  obtain ⟨hstate, -⟩ | ⟨-, ⟨last, source, hs, hfind, -⟩ | ⟨-, -, hstate⟩⟩ := h.state_cases
  · cases hstate.symm.trans hn
  · exact ⟨last, source, hs, hfind⟩
  · cases hstate.symm.trans hn

/-- A directory that nobody declared is needed, or it is the root. -/
theorem needed_of_implicit (h : ComesFrom n draft ds b drafts) {permissions : Permissions}
    (hn : n.state = .implicit permissions) :
    Drafts.IsNeeded b.drafts n.path ∨ n.path = .root ∧ inForce n.path ds ≠ [] := by
  obtain ⟨hstate, -⟩ | ⟨-, ⟨last, source, -, -, -, hstate⟩ | ⟨hneeded, -⟩⟩ := h.state_cases
  · cases hstate.symm.trans hn
  · cases hstate.symm.trans hn
  · exact hneeded

theorem mem_dependencies_iff (h : ComesFrom n draft ds b drafts) {q : TargetPath} :
    q ∈ n.dependencies.keys ↔ (∃ d ∈ fromRemoval (inForce n.path ds), q ∈ d.requires) ∨
      n.path.parent? = some q ∧ drafts.contains q := by
  rw [h.dependencies, Drafts.mem_dependencies_iff, h.reflects.requires]

end ComesFrom

namespace IsBuilt

variable {g : Graph} {ds : List Declaration} {b : Builder} {drafts : Drafts}

/-- A node of a draft that was filled in comes from the draft before, if its state does. -/
theorem comesFrom_of_node (h : g.IsBuilt ds b drafts) {n : Node} {finished draft : Draft}
    (hfind : drafts.find? n.path = some finished) (hnode : drafts.node n.path finished = .ok n)
    (hsame : { finished with standing := draft.standing, order := draft.order } = draft)
    (hreflects : draft.Reflects (inForce n.path ds))
    (hstate : ∀ state, finished.state? = some state → (match draft.standing with
      | .entry spec _ => b.drafts.find? n.path = some draft ∧
          state = .declared { spec with permissions := spec.permissions.overlaid draft.overlay }
      | .removed _ => b.drafts.find? n.path = some draft ∧ state = .absent
      | .pending => state = .implicit draft.overlay ∧
          (Drafts.IsNeeded b.drafts n.path ∨ n.path = .root ∧ inForce n.path ds ≠ [])
      | .implicit => False)) : ComesFrom n draft ds b drafts := by
  obtain ⟨state, hs, heq⟩ := Drafts.node_eq_ok_iff.1 hnode
  have hxattrs : n.xattrs = draft.xattrs.mapValues fun _ v => v.1 := by rw [heq, ← hsame]
  refine ⟨hreflects, fun name => ?_, ?_, fun q hq => ?_, ?_⟩
  · rw [hxattrs, SortedMap.find?_mapValues _ _ _ fun _ _ _ => rfl]
  · rw [← hsame, heq]
    rfl
  · rw [← hsame] at hq
    exact h.nodes.met hfind hq
  · have hn : n.state = state := by rw [heq]
    rw [hn]
    exact hstate state hs

/-- Every node comes from a draft that reflects the declarations in force. -/
theorem exists_comesFrom (h : g.IsBuilt ds b drafts) {n : Node} (hn : n ∈ g.nodes) :
    ∃ draft, ComesFrom n draft ds b drafts := by
  obtain ⟨finished, hfinished, hnode⟩ := h.nodes.sound hn
  cases hfind : b.drafts.find? n.path with
  | none =>
    -- Without a draft of its own the path was filled in, so nothing was declared there.
    have hneeded : Drafts.IsNeeded b.drafts n.path := by
      by_contra hnot
      rw [h.filled.none hfind hnot] at hfinished
      cases hfinished
    obtain ⟨order, hadded⟩ := h.filled.added hfind hneeded
    obtain rfl := Option.some.inj (hfinished.symm.trans hadded)
    have hreflects : (Draft.fresh order).Reflects (inForce n.path ds) := by
      rw [h.reflects.none hfind]
      exact Draft.reflects_fresh order
    refine ⟨_, h.comesFrom_of_node hfinished hnode rfl hreflects ?_⟩
    rintro state ⟨⟩
    exact ⟨rfl, .inl hneeded⟩
  | some draft =>
    obtain ⟨hreflects, hne⟩ := h.reflects.draft hfind
    by_cases hs : draft.standing = .pending
    · by_cases hraised : Drafts.IsNeeded b.drafts n.path ∨ n.path = .root
      · obtain rfl :=
          Option.some.inj (hfinished.symm.trans (h.filled.raised hfind hs hraised))
        refine ⟨draft, h.comesFrom_of_node hfinished hnode rfl hreflects ?_⟩
        rintro state ⟨⟩
        rw [hs]
        exact ⟨rfl, hraised.imp_right fun hroot => ⟨hroot, hne⟩⟩
      · -- An adjustment of what is not there comes to nothing.
        obtain rfl := Option.some.inj ((h.filled.left hfind hs hraised).symm.trans hfinished)
        obtain ⟨state, hstate, -⟩ := Drafts.node_eq_ok_iff.1 hnode
        rw [Draft.state?, hs] at hstate
        cases hstate
    · obtain rfl := Option.some.inj ((h.filled.kept hfind hs).symm.trans hfinished)
      refine ⟨draft, h.comesFrom_of_node hfinished hnode rfl hreflects ?_⟩
      intro state hstate
      rw [Draft.state?] at hstate
      cases hstanding : draft.standing with
      | pending => exact absurd hstanding hs
      | implicit =>
        have := hreflects.standing
        rw [hstanding] at this
        exact this
      | entry spec source =>
        rw [hstanding] at hstate
        cases hstate
        exact ⟨hfind, rfl⟩
      | removed source =>
        rw [hstanding] at hstate
        cases hstate
        exact ⟨hfind, rfl⟩

/-- There is a node wherever a declaration is in force, and at every path above an entry. -/
theorem exists_node (h : g.IsBuilt ds b drafts) {p : TargetPath}
    (hp : inForce p ds ≠ [] ∨ Drafts.IsNeeded b.drafts p) : ∃ n ∈ g.nodes, n.path = p := by
  have hthere : ∃ draft, drafts.find? p = some draft := by
    cases hfind : b.drafts.find? p with
    | none =>
      rcases hp with hne | hneeded
      · exact absurd (h.reflects.none hfind) hne
      · obtain ⟨order, hadded⟩ := h.filled.added hfind hneeded
        exact ⟨_, hadded⟩
    | some draft =>
      by_cases hs : draft.standing = .pending
      · by_cases hraised : Drafts.IsNeeded b.drafts p ∨ p = .root
        · exact ⟨_, h.filled.raised hfind hs hraised⟩
        · exact ⟨_, h.filled.left hfind hs hraised⟩
      · exact ⟨_, h.filled.kept hfind hs⟩
  obtain ⟨draft, hdraft⟩ := hthere
  obtain ⟨n, hn, hnode⟩ := h.nodes.total hdraft
  exact ⟨n, hn, Drafts.node_path hnode⟩

theorem contains_of_mem (h : g.IsBuilt ds b drafts) {n : Node} (hn : n ∈ g.nodes) :
    drafts.contains n.path := by
  obtain ⟨finished, hfinished, -⟩ := h.nodes.sound hn
  rw [SortedMap.contains, hfinished]
  rfl

/-- The entries of a builder are the declared nodes of its graph. -/
theorem isNeeded_iff (h : g.IsBuilt ds b drafts) {p : TargetPath} :
    Drafts.IsNeeded b.drafts p ↔
      ∃ n ∈ g.nodes, (∃ spec, n.state = .declared spec) ∧ p ∈ n.path.ancestors := by
  constructor
  · rintro ⟨q, draft, spec, source, hfind, hs, hp⟩
    obtain ⟨hreflects, hne⟩ := h.reflects.draft hfind
    obtain ⟨n, hn, rfl⟩ := h.exists_node (.inl hne)
    obtain ⟨draft', hcomes⟩ := h.exists_comesFrom hn
    have hstanding := hreflects.standing
    rw [hs] at hstanding
    obtain ⟨merged, hmerged⟩ : ∃ merged, mergedSpec? (inForce n.path ds) = some merged :=
      ⟨_, by rw [mergedSpec?, hstanding.1]; rfl⟩
    exact ⟨n, hn, ⟨merged, (hcomes.declared_iff merged).2 ⟨hmerged, hstanding.2⟩⟩, hp⟩
  · rintro ⟨n, hn, ⟨spec, hspec⟩, hp⟩
    obtain ⟨draft, hcomes⟩ := h.exists_comesFrom hn
    obtain ⟨last, source, hs, hfind⟩ := hcomes.entry_of_declared hspec
    exact ⟨n.path, draft, last, source, hfind, hs, hp⟩

/-- Where something is created, all that is above it is needed. -/
theorem isNeeded_of_mem_ancestors (h : g.IsBuilt ds b drafts) {n : Node} (hn : n ∈ g.nodes)
    (hcreated : n.state ≠ .absent) {q : TargetPath} (hq : q ∈ n.path.ancestors) :
    Drafts.IsNeeded b.drafts q := by
  obtain ⟨draft, hcomes⟩ := h.exists_comesFrom hn
  cases hstate : n.state with
  | absent => exact absurd hstate hcreated
  | declared spec =>
    obtain ⟨last, source, hs, hfind⟩ := hcomes.entry_of_declared hstate
    exact ⟨n.path, draft, last, source, hfind, hs, hq⟩
  | implicit permissions =>
    rcases hcomes.needed_of_implicit hstate with ⟨e, draft', spec, source, hfind, hs, hp⟩ | ⟨hroot, -⟩
    · exact ⟨e, draft', spec, source, hfind, hs, TargetPath.mem_ancestors_trans hp hq⟩
    · rw [hroot, TargetPath.ancestors_root] at hq
      cases hq

/-! ### Path by path -/

theorem comesFrom_of_find? (h : g.IsBuilt ds b drafts) {p : TargetPath} {n : Node}
    (hfind : g.find? p = some n) : n.path = p ∧ ∃ draft, ComesFrom n draft ds b drafts := by
  obtain ⟨hn, hpath⟩ := find?_eq_some_iff.1 hfind
  exact ⟨hpath, h.exists_comesFrom hn⟩

/-- Where a node is known to be, its state is a matter of the draft that it comes from. -/
theorem exists_find? (h : g.IsBuilt ds b drafts) {p : TargetPath} {state : NodeState}
    (hp : inForce p ds ≠ [] ∨ Drafts.IsNeeded b.drafts p)
    (hstate : ∀ n draft, ComesFrom n draft ds b drafts → n.path = p → n.state = state) :
    ∃ n, g.find? p = some n ∧ n.state = state := by
  obtain ⟨n, hn, hpath⟩ := h.exists_node hp
  obtain ⟨draft, hcomes⟩ := h.exists_comesFrom hn
  exact ⟨n, find?_eq_some_iff.2 ⟨hn, hpath⟩, hstate n draft hcomes hpath⟩

theorem exists_absent_iff (h : g.IsBuilt ds b drafts) (p : TargetPath) :
    (∃ n, g.find? p = some n ∧ n.state = .absent) ↔ ∃ d ∈ inForce p ds, d.IsRemoval := by
  constructor
  · rintro ⟨n, hfind, hn⟩
    obtain ⟨rfl, draft, hcomes⟩ := h.comesFrom_of_find? hfind
    exact hcomes.absent_iff.1 hn
  · rintro ⟨d, hd, hremoval⟩
    apply h.exists_find? (.inl (List.ne_nil_of_mem hd))
    intro n draft hcomes hpath
    subst hpath
    exact hcomes.absent_iff.2 ⟨d, hd, hremoval⟩

theorem exists_declared_iff (h : g.IsBuilt ds b drafts) (p : TargetPath) (spec : EntrySpec) :
    (∃ n, g.find? p = some n ∧ n.state = .declared spec) ↔
      mergedSpec? (inForce p ds) = some spec ∧ ∀ d ∈ inForce p ds, ¬d.IsRemoval := by
  constructor
  · rintro ⟨n, hfind, hn⟩
    obtain ⟨rfl, draft, hcomes⟩ := h.comesFrom_of_find? hfind
    exact (hcomes.declared_iff spec).1 hn
  · rintro ⟨hspec, hremoval⟩
    obtain ⟨last, hlast, -⟩ := Option.map_eq_some_iff.1 hspec
    obtain ⟨d, hd, -⟩ := exists_of_lastOf hlast
    apply h.exists_find? (.inl (List.ne_nil_of_mem hd))
    intro n draft hcomes hpath
    subst hpath
    exact (hcomes.declared_iff spec).2 ⟨hspec, hremoval⟩

theorem exists_implicit_iff (h : g.IsBuilt ds b drafts) (p : TargetPath) (permissions : Permissions) :
    (∃ n, g.find? p = some n ∧ n.state = .implicit permissions) ↔
      (∀ d ∈ inForce p ds, d.entry? = none ∧ ¬d.IsRemoval) ∧
        (Drafts.IsNeeded b.drafts p ∨ p = .root ∧ inForce p ds ≠ []) ∧
        permissions = lastSet (inForce p ds) := by
  constructor
  · rintro ⟨n, hfind, hn⟩
    obtain ⟨rfl, draft, hcomes⟩ := h.comesFrom_of_find? hfind
    obtain ⟨hnone, hpermissions⟩ := (hcomes.implicit_iff permissions).1 hn
    exact ⟨hnone, hcomes.needed_of_implicit hn, hpermissions⟩
  · rintro ⟨hnone, hneeded, hpermissions⟩
    apply h.exists_find? (hneeded.symm.imp_left And.right)
    intro n draft hcomes hpath
    subst hpath
    exact (hcomes.implicit_iff permissions).2 ⟨hnone, hpermissions⟩

/-- What is created depends on what is required for it and on the directory that it is in, which there is. -/
theorem mem_dependencies_iff (h : g.IsBuilt ds b drafts) {n : Node} (hn : n ∈ g.nodes)
    (hcreated : n.state ≠ .absent) {q : TargetPath} :
    q ∈ n.dependencies.keys ↔
      (∃ d ∈ inForce n.path ds, q ∈ d.requires) ∨ n.path.parent? = some q := by
  obtain ⟨draft, hcomes⟩ := h.exists_comesFrom hn
  rw [hcomes.mem_dependencies_iff, hcomes.fromRemoval_eq hcreated]
  refine or_congr_right ⟨And.left, fun hq => ⟨hq, ?_⟩⟩
  have hneeded := h.isNeeded_of_mem_ancestors hn hcreated (TargetPath.parent?_mem_ancestors hq)
  obtain ⟨m, hm, rfl⟩ := h.exists_node (.inr hneeded)
  exact h.contains_of_mem hm

end IsBuilt

/-! ## The outcome -/

/-- What a graph has at a path is the merge of the declarations in force there. -/
structure Merges (g : Graph) (ds : List Declaration) (p : TargetPath) : Prop where
  /-- A removal, exactly when there is one in force. -/
  absent : (∃ n, g.find? p = some n ∧ n.state = .absent) ↔ ∃ d ∈ inForce p ds, d.IsRemoval
  /-- An entry, exactly when there is one in force and no removal: the last one, with the permission-sets
      laid over it. -/
  declared : ∀ spec, (∃ n, g.find? p = some n ∧ n.state = .declared spec) ↔
    mergedSpec? (inForce p ds) = some spec ∧ ∀ d ∈ inForce p ds, ¬d.IsRemoval
  /-- A directory that nobody declared, exactly when neither is in force and an entry needs one or it is the
      adjusted root: with the permission-sets at its path alone. -/
  implicit : ∀ permissions, (∃ n, g.find? p = some n ∧ n.state = .implicit permissions) ↔
    (∀ d ∈ inForce p ds, d.entry? = none ∧ ¬d.IsRemoval) ∧
      ((∃ m ∈ g.nodes, (∃ spec, m.state = .declared spec) ∧ p ∈ m.path.ancestors) ∨
        p = .root ∧ inForce p ds ≠ []) ∧
      permissions = lastSet (inForce p ds)
  /-- Each attribute has its last value. -/
  xattrs : ∀ n, g.find? p = some n → n.state ≠ .absent → ∀ name,
    n.xattrs.find? name = lastOf (Declaration.attribute? name) (inForce p ds)
  /-- All requirements in force are dependencies, and the directory that contains the node is the only
      other one. -/
  dependencies : ∀ n, g.find? p = some n → n.state ≠ .absent → ∀ q,
    q ∈ n.dependencies.keys ↔ (∃ d ∈ inForce p ds, q ∈ d.requires) ∨ p.parent? = some q
  /-- There is no second node. -/
  sole : ∀ n ∈ g.nodes, n.path = p → g.find? p = some n

/-- A merge that succeeds has at every path what the declarations in force there say. -/
theorem build_merges {strictness : Strictness} {ds : List Declaration} {g : Graph}
    (h : build strictness ds = .ok g) (p : TargetPath) : g.Merges ds p := by
  obtain ⟨b, drafts, hbuilt⟩ := exists_isBuilt h
  refine ⟨hbuilt.exists_absent_iff p, hbuilt.exists_declared_iff p, fun permissions => ?_,
    fun n hfind hn name => ?_, fun n hfind hn q => ?_, fun n hn hpath => ?_⟩
  · rw [← hbuilt.isNeeded_iff]
    exact hbuilt.exists_implicit_iff p permissions
  · obtain ⟨rfl, draft, hcomes⟩ := hbuilt.comesFrom_of_find? hfind
    rw [hcomes.xattrs, hcomes.reflects.xattrs, hcomes.fromRemoval_eq hn]
  · obtain ⟨hmem, rfl⟩ := find?_eq_some_iff.1 hfind
    exact hbuilt.mem_dependencies_iff hmem hn
  · exact find?_eq_some_iff.2 ⟨hn, hpath⟩

/-- A directory with its only file, removed; a file declared twice in a directory that is only adjusted. -/
def layered : List Declaration :=
  [⟨⟨["srv", "old"], by decide⟩, .entry (.bare (.file [1])), ⟨"base", 0⟩, [], by decide, by decide⟩,
    ⟨⟨["etc", "app", "conf"], by decide⟩, .entry (.bare (.file [1, 2])), ⟨"base", 1⟩, [], by decide,
      by decide⟩,
    ⟨⟨["srv"], by decide⟩, .absent, ⟨"site", 0⟩, [], by decide, by decide⟩,
    ⟨⟨["etc", "app"], by decide⟩, .permissions ⟨some ⟨0o700⟩, none, none⟩, ⟨"site", 1⟩, [], by decide,
      by decide⟩,
    ⟨⟨["etc", "app", "conf"], by decide⟩, .entry (.bare (.file [3])), ⟨"site", 2⟩, [], by decide,
      by decide⟩]

/-- The file has its last content, and the directory that it is in has its mode. -/
theorem layered_merges : ∃ g, build .lenient layered = .ok g ∧ (∀ p, g.Merges layered p) ∧
    g.nodes.map (fun n => (n.path.text, n.state)) =
      [("/", .implicit .none), ("/etc", .implicit .none),
        ("/etc/app", .implicit ⟨some ⟨0o700⟩, none, none⟩),
        ("/etc/app/conf", .declared (.bare (.file [3]))), ("/srv", .absent)] := by
  have hrun : (build .lenient layered).toOption.map
      (fun g => g.nodes.map fun n => (n.path.text, n.state)) =
      some [("/", .implicit .none), ("/etc", .implicit .none),
        ("/etc/app", .implicit ⟨some ⟨0o700⟩, none, none⟩),
        ("/etc/app/conf", .declared (.bare (.file [3]))), ("/srv", .absent)] := by cbv
  cases hbuild : build .lenient layered with
  | error e => rw [hbuild] at hrun; cases hrun
  | ok g =>
    rw [hbuild] at hrun
    exact ⟨g, rfl, build_merges hbuild, Option.some.inj hrun⟩

end Graph

end Provision
