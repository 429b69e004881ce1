import Provision.Proofs.Merge.Outcome

/-! # What finishing a merge does not look at

Where a declaration was made and at which position has no part in what a merge comes to: finishing drafts with
other provenances and positions gives the same nodes with other provenances and positions, or the same error.

* `Relabelling` — other provenances and positions; `Draft.relabel`, `Drafts.relabel`, `Graph.relabel`.
* `Drafts.climb_relabel`, `Drafts.filledIn_relabel`, `Drafts.nodes_relabel` — the stages of finishing.
* `Drafts.finish_relabel` — finishing.
-/

namespace Provision

/-- Other provenances and positions. -/
structure Relabelling where
  source : Provenance → Provenance
  history : List Provenance → List Provenance
  position : Nat → Nat
  /-- The first declaration of a history is still the first. -/
  head : ∀ l, (history l).head? = l.head?.map source

variable (r : Relabelling)

def Standing.relabel : Standing → Standing
  | .entry spec declaredBy => .entry spec (r.source declaredBy)
  | .removed declaredBy => .removed (r.source declaredBy)
  | .pending => .pending
  | .implicit => .implicit

def Draft.relabel (draft : Draft) : Draft where
  standing := draft.standing.relabel r
  adjustment := draft.adjustment.map fun a => { a with last := r.source a.last }
  xattrs := draft.xattrs.mapValues fun _ v => (v.1, r.source v.2)
  requires := draft.requires.map fun required => (required.1, r.source required.2)
  provenance := r.history draft.provenance
  order := r.position draft.order

def Drafts.relabel (drafts : Drafts) : Drafts := drafts.mapValues fun _ draft => draft.relabel r

def Climber.relabel (c : Climber) : Climber := ⟨c.path, r.source c.declaredBy, r.position c.order⟩

def Conflict.relabel (c : Conflict) : Conflict :=
  { c with first := r.source c.first, second := r.source c.second }

def Dangling.relabel : Dangling → Dangling
  | .unresolvedTarget path declaredBy => .unresolvedTarget path (r.source declaredBy)
  | .missingDependency path required declaredBy => .missingDependency path required (r.source declaredBy)

def MergeError.relabel : MergeError → MergeError
  | .conflict c => .conflict (c.relabel r)
  | .dangling d => .dangling (d.relabel r)

def Node.relabel (n : Node) : Node :=
  { n with provenance := r.history n.provenance, order := r.position n.order }

def Graph.relabel (g : Graph) : Graph where
  nodes := g.nodes.map (·.relabel r)
  ascending := by
    rw [List.map_map]
    exact g.ascending
  warnings := g.warnings

namespace Drafts

variable {drafts : Drafts}

/-! ## Look-ups -/

theorem find?_relabel (drafts : Drafts) (p : TargetPath) :
    (drafts.relabel r).find? p = (drafts.find? p).map (·.relabel r) :=
  SortedMap.find?_mapValues _ _ _ fun _ _ _ => rfl

theorem insert_relabel (drafts : Drafts) (p : TargetPath) (draft : Draft) :
    Drafts.relabel r (drafts.insert p draft) = (drafts.relabel r).insert p (draft.relabel r) := by
  refine SortedMap.ext fun q => ?_
  rw [find?_relabel]
  by_cases h : q = p
  · subst h
    rw [SortedMap.find?_insert_self, SortedMap.find?_insert_self, Option.map_some]
  · rw [SortedMap.find?_insert_of_ne _ h, SortedMap.find?_insert_of_ne _ h, find?_relabel]

theorem entries_relabel (drafts : Drafts) :
    (drafts.relabel r).entries = drafts.entries.map fun e => (e.1, e.2.relabel r) := rfl

/-! ## The hierarchy -/

theorem climbers_relabel (drafts : Drafts) :
    (drafts.relabel r).climbers = drafts.climbers.map (·.relabel r) := by
  rw [climbers, climbers, entries_relabel, List.filterMap_map, List.map_filterMap]
  refine List.filterMap_congr fun e _ => ?_
  obtain ⟨p, draft⟩ := e
  simp only [Function.comp_apply, Draft.relabel]
  cases draft.standing <;> rfl

theorem fresh_relabel (order : Nat) :
    { Draft.fresh (r.position order) with standing := .implicit } =
      ({ Draft.fresh order with standing := .implicit } : Draft).relabel r := by
  have hhistory : r.history [] = [] := List.head?_eq_none_iff.1 (by rw [r.head]; rfl)
  simp only [Draft.relabel, Draft.fresh, hhistory]
  rfl

theorem climb_relabel (climber : Climber) (drafts : Drafts) (l : List TargetPath) :
    (drafts.relabel r).climb (climber.relabel r) l =
      ((drafts.climb climber l).map (·.relabel r)).mapError (·.relabel r) := by
  -- Each step of the walk puts in at most one directory, so the drafts change under the induction.
  induction l generalizing drafts with
  | nil => rfl
  | cons ancestor rest ih =>
    rw [climb, climb, find?_relabel]
    cases hfind : drafts.find? ancestor with
    | none =>
      simp only [Option.map_none]
      rw [← ih, insert_relabel, ← fresh_relabel]
      rfl
    | some draft =>
      simp only [Option.map_some, Draft.relabel]
      cases hs : draft.standing with
      | entry spec first =>
        simp only [Standing.relabel]
        split <;> rfl
      | implicit => rfl
      | removed first => rfl
      | pending =>
        simp only [Standing.relabel]
        rw [← ih, insert_relabel]
        rfl

theorem climbAll_relabel (drafts : Drafts) (l : List Climber) :
    (drafts.relabel r).climbAll (l.map (·.relabel r)) =
      ((drafts.climbAll l).map (·.relabel r)).mapError (·.relabel r) := by
  induction l generalizing drafts with
  | nil => rfl
  | cons climber rest ih =>
    rw [List.map_cons, climbAll, climbAll]
    have hpath : (climber.relabel r).path = climber.path := rfl
    rw [hpath, climb_relabel]
    cases drafts.climb climber climber.path.ancestors with
    | error conflict => rfl
    | ok drafts => exact ih drafts

theorem standing_relabel_eq_pending {standing : Standing} :
    standing.relabel r = .pending ↔ standing = .pending := by
  cases standing <;> simp [Standing.relabel]

theorem rooted_relabel (drafts : Drafts) : (drafts.relabel r).rooted = drafts.rooted.relabel r := by
  rw [rooted, rooted, find?_relabel]
  cases drafts.find? .root with
  | none => rfl
  | some draft =>
    simp only [Option.map_some, Draft.relabel, standing_relabel_eq_pending]
    split
    · rw [insert_relabel]
      rfl
    · rfl

theorem filledIn_relabel (drafts : Drafts) :
    (drafts.relabel r).filledIn = (drafts.filledIn.map (·.relabel r)).mapError (·.relabel r) := by
  rw [filledIn, filledIn, climbers_relabel, climbAll_relabel]
  cases drafts.climbAll drafts.climbers with
  | error conflict => rfl
  | ok filled => exact congrArg Except.ok (rooted_relabel r filled)

/-! ## Nodes -/

theorem creates_relabel (drafts : Drafts) (p : TargetPath) :
    (drafts.relabel r).creates p = drafts.creates p := by
  rw [creates, creates, find?_relabel]
  cases drafts.find? p with
  | none => rfl
  | some draft =>
    simp only [Option.map_some, Option.any_some, Draft.isPresent, Draft.relabel]
    cases draft.standing <;> rfl

theorem missing?_relabel (drafts : Drafts) :
    (drafts.relabel r).missing? = drafts.missing?.map (·.relabel r) := by
  rw [missing?, missing?, entries_relabel, List.findSome?_map, List.map_findSome?]
  congr 1
  funext e
  obtain ⟨p, draft⟩ := e
  simp only [Function.comp_apply, Draft.relabel, List.findSome?_map, List.map_findSome?]
  congr 1
  funext required
  simp only [Function.comp_apply, creates_relabel]
  split <;> rfl

theorem contains_relabel (drafts : Drafts) (p : TargetPath) :
    (drafts.relabel r).contains p = drafts.contains p := by
  rw [SortedMap.contains, SortedMap.contains, find?_relabel, Option.isSome_map]

theorem dependencies_relabel (drafts : Drafts) (p : TargetPath) (draft : Draft) :
    (drafts.relabel r).dependencies p (draft.relabel r) = drafts.dependencies p draft := by
  simp only [dependencies, contains_relabel, Draft.relabel, List.foldl_map]

theorem state?_relabel (draft : Draft) : (draft.relabel r).state? = draft.state? := by
  have hoverlay : (draft.relabel r).overlay = draft.overlay := by
    simp only [Draft.overlay, Draft.relabel]
    cases draft.adjustment <;> rfl
  rw [Draft.state?, Draft.state?, hoverlay]
  simp only [Draft.relabel]
  cases draft.standing <;> rfl

theorem xattrs_relabel (draft : Draft) :
    ((draft.relabel r).xattrs.mapValues fun _ v => v.1) = draft.xattrs.mapValues fun _ v => v.1 := by
  simp only [Draft.relabel, SortedMap.mapValues, List.map_map]
  rfl

theorem node_relabel (drafts : Drafts) (p : TargetPath) {draft : Draft}
    (named : draft.standing = .pending → draft.provenance ≠ []) :
    (drafts.relabel r).node p (draft.relabel r) =
      ((drafts.node p draft).map (·.relabel r)).mapError (·.relabel r) := by
  rw [node, node, state?_relabel, dependencies_relabel, xattrs_relabel]
  cases hstate : draft.state? with
  | some state => rfl
  | none =>
    -- Only adjusted: the error names the first declaration, which relabelling keeps in front.
    have hpending : draft.standing = .pending := by
      rw [Draft.state?] at hstate
      cases hs : draft.standing <;> simp [hs] at hstate ⊢
    obtain ⟨first, more, hfirst⟩ := List.exists_cons_of_ne_nil (named hpending)
    have hhead : (r.history draft.provenance).head? = some (r.source first) := by
      rw [r.head, hfirst]
      rfl
    have hrelabel : (draft.relabel r).provenance = r.history draft.provenance := rfl
    rw [List.headD_eq_head?_getD, List.headD_eq_head?_getD, hrelabel, hhead, hfirst]
    rfl

theorem nodes_cons (drafts : Drafts) (p : TargetPath) (draft : Draft) (rest : List (TargetPath × Draft)) :
    (drafts.nodes ((p, draft) :: rest)).map (·.1) =
      match drafts.node p draft, (drafts.nodes rest).map (·.1) with
      | .error e, _ => .error e
      | .ok _, .error e => .error e
      | .ok n, .ok ns => .ok (n :: ns) := by
  rw [nodes.eq_def]
  simp only
  split
  · rename_i hnode
    simp only [hnode]
    rfl
  · rename_i hnode hrest
    simp only [hnode, hrest]
    rfl
  · rename_i hnode hrest
    simp only [hnode, hrest]
    rfl

theorem nodes_relabel (drafts : Drafts) {l : List (TargetPath × Draft)}
    (named : ∀ e ∈ l, e.2.standing = .pending → e.2.provenance ≠ []) :
    ((drafts.relabel r).nodes (l.map fun e => (e.1, e.2.relabel r))).map (·.1) =
      (((drafts.nodes l).map (·.1)).map fun ns => ns.map (·.relabel r)).mapError (·.relabel r) := by
  induction l with
  | nil => rfl
  | cons e rest ih =>
    obtain ⟨p, draft⟩ := e
    have hnode := node_relabel r drafts p (named (p, draft) List.mem_cons_self)
    rw [List.map_cons, nodes_cons, nodes_cons, ih fun e he => named e (List.mem_cons_of_mem _ he),
      hnode]
    cases drafts.node p draft with
    | error e => rfl
    | ok n => cases (drafts.nodes rest).map (·.1) <;> rfl

theorem graph_eq_ok_iff {warnings : List Warning} {g : Graph} :
    drafts.graph warnings = .ok g ↔ drafts.missing? = none ∧
      (drafts.nodes drafts.entries).map (·.1) = .ok g.nodes ∧ g.warnings = warnings := by
  obtain ⟨gnodes, ascending, gwarnings⟩ := g
  rw [graph]
  cases drafts.missing? with
  | some dangling => simp
  | none =>
    cases drafts.nodes drafts.entries with
    | error e => simp [Except.map]
    | ok ns =>
      obtain ⟨ns, hpaths⟩ := ns
      simp [Except.map, eq_comm]

theorem graph_eq_error_iff {warnings : List Warning} {e : Dangling} :
    drafts.graph warnings = .error e ↔ drafts.missing? = some e ∨
      drafts.missing? = none ∧ (drafts.nodes drafts.entries).map (·.1) = .error e := by
  rw [graph]
  cases drafts.missing? with
  | some dangling => simp
  | none => cases drafts.nodes drafts.entries <;> simp [Except.map]

theorem graph_relabel {drafts : Drafts}
    (named : ∀ {p draft}, drafts.find? p = some draft → draft.standing = .pending → draft.provenance ≠ [])
    (warnings : List Warning) :
    (drafts.relabel r).graph warnings =
      ((drafts.graph warnings).map (·.relabel r)).mapError (·.relabel r) := by
  have hnodes := nodes_relabel r drafts (l := drafts.entries)
    fun e he => named (SortedMap.mem_entries_iff.1 he)
  cases hgraph : drafts.graph warnings with
  | error e =>
    apply graph_eq_error_iff.2
    rw [missing?_relabel, entries_relabel, hnodes]
    rcases graph_eq_error_iff.1 hgraph with hmissing | ⟨hnone, herror⟩
    · exact .inl (by rw [hmissing]; rfl)
    · exact .inr ⟨by rw [hnone]; rfl, by rw [herror]; rfl⟩
  | ok g =>
    obtain ⟨hnone, hok, hwarnings⟩ := graph_eq_ok_iff.1 hgraph
    apply graph_eq_ok_iff.2
    rw [missing?_relabel, entries_relabel, hnodes, hnone, hok]
    exact ⟨rfl, rfl, hwarnings⟩

/-! ## Finishing -/

/-- What is still only adjusted when directories are filled in was so before. -/
theorem Filled.find?_of_pending {filled : Drafts} (h : Filled drafts filled) {p : TargetPath}
    {draft : Draft} (hfind : filled.find? p = some draft) (hs : draft.standing = .pending) :
    drafts.find? p = some draft := by
  cases hbefore : drafts.find? p with
  | none =>
    -- What filling in puts in is a directory from the start.
    by_cases hneeded : IsNeeded drafts p
    · obtain ⟨order, hadded⟩ := h.added hbefore hneeded
      cases hfind.symm.trans hadded
      cases hs
    · cases hfind.symm.trans (h.none hbefore hneeded)
  | some before =>
    by_cases hpending : before.standing = .pending
    · by_cases hraised : IsNeeded drafts p ∨ p = .root
      · cases hfind.symm.trans (h.raised hbefore hpending hraised)
        cases hs
      · rw [← h.left hbefore hpending hraised, hfind]
    · rw [← h.kept hbefore hpending, hfind]

/-- What has to hold of drafts for finishing to make sense: no directory is filled in yet, and every draft has
    a declaration that it comes from. -/
structure IsOpen (drafts : Drafts) : Prop where
  plain : ∀ {p draft}, drafts.find? p = some draft → draft.standing ≠ .implicit
  named : ∀ {p draft}, drafts.find? p = some draft → draft.provenance ≠ []

theorem finish_relabel (h : drafts.IsOpen) (warnings : List Warning) :
    (drafts.relabel r).finish warnings =
      ((drafts.finish warnings).map (·.relabel r)).mapError (·.relabel r) := by
  rw [finish, finish, filledIn_relabel]
  cases hfilled : drafts.filledIn with
  | error conflict => rfl
  | ok filled =>
    obtain ⟨hfills, -⟩ := of_filledIn h.plain hfilled
    simp only [Except.map, Except.mapError]
    rw [graph_relabel r fun hfind hs => h.named (hfills.find?_of_pending hfind hs)]
    cases filled.graph warnings <;> rfl

/-- Warnings have no part in finishing, they are only passed on. -/
theorem finish_warnings (drafts : Drafts) (warnings : List Warning) :
    drafts.finish warnings = (drafts.finish []).map fun g => { g with warnings } := by
  rw [finish, finish]
  cases drafts.filledIn with
  | error conflict => rfl
  | ok filled =>
    simp only [graph]
    cases filled.missing? with
    | some dangling => rfl
    | none => cases filled.nodes filled.entries <;> rfl

end Drafts

end Provision
