import Provision.Proofs.Extraction
import Provision.Proofs.Merge.Finish

/-! # Requirements

What a declaration requires is kept, whatever else is declared at its path, until a removal at the path or above it
makes the declaration void.

* `Declaration.IsKept` — a declaration that no later removal makes void; `mem_fromRemoval_inForce_iff` — these are the
  declarations that count at a path.
* `Graph.not_isRemoved_of_build` — where something is created, nothing was ever removed.
* `Graph.KeepsRequirements`, `Graph.build_keepsRequirements` — the statement.
-/

namespace Provision

variable {ds : List Declaration} {d e : Declaration} {p : TargetPath}

/-! ## Declarations that are kept -/

/-- Whether a declaration comes after all removals at its path and above it, but for itself. -/
def Declaration.IsKept (ds : List Declaration) (d : Declaration) : Prop :=
  ∃ before after, ds = before ++ d :: after ∧ ¬IsRemoved after d.path

theorem isKept_concat :
    d.IsKept (ds ++ [e]) ↔ d = e ∨ d.IsKept ds ∧ ¬(e.IsRemoval ∧ e.path ∈ d.path :: d.path.ancestors) := by
  constructor
  · rintro ⟨before, after, hsplit, hafter⟩
    rcases after.eq_nil_or_concat' with rfl | ⟨more, last, rfl⟩
    · exact .inl (List.append_inj_right' hsplit rfl |> List.singleton_inj.1).symm
    · rw [← List.cons_append, ← List.append_assoc] at hsplit
      obtain ⟨rfl, hlast⟩ := List.append_inj' hsplit rfl
      cases hlast
      obtain ⟨hmore, hcover⟩ := not_or.1 (isRemoved_concat.not.1 hafter)
      exact .inr ⟨⟨before, more, rfl, hmore⟩, hcover⟩
  · rintro (rfl | ⟨⟨before, after, rfl, hafter⟩, hcover⟩)
    · exact ⟨ds, [], rfl, fun ⟨_, hmem, _⟩ => List.not_mem_nil hmem⟩
    · exact ⟨before, after ++ [e], by simp, isRemoved_concat.not.2 (not_or.2 ⟨hafter, hcover⟩)⟩

/-- The declarations that count at a path are those that are kept there. -/
theorem mem_fromRemoval_inForce_iff : d ∈ fromRemoval (inForce p ds) ↔ d.path = p ∧ d.IsKept ds := by
  induction ds using List.reverseRecOn with
  | nil =>
    refine iff_of_false List.not_mem_nil fun h => ?_
    obtain ⟨-, before, after, hsplit, -⟩ := h
    simp at hsplit
  | append_singleton ds e ih =>
    rw [isKept_concat]
    by_cases hsweeps : e.Sweeps p
    · -- What sweeps a path is not at the path itself.
      rw [inForce_concat_of_sweeps hsweeps]
      refine iff_of_false List.not_mem_nil ?_
      rintro ⟨rfl, rfl | ⟨-, hcover⟩⟩
      · exact TargetPath.not_mem_ancestors_self _ hsweeps.2
      · exact hcover ⟨hsweeps.1, List.mem_cons_of_mem _ hsweeps.2⟩
    · by_cases hp : e.path = p
      · subst hp
        rw [inForce_concat_self, fromRemoval_concat]
        split
        · rename_i hremoval
          rw [List.mem_singleton]
          constructor
          · rintro rfl
            exact ⟨rfl, .inl rfl⟩
          · rintro ⟨hpath, rfl | ⟨-, hcover⟩⟩
            · rfl
            · exact absurd ⟨hremoval, by rw [hpath]; exact List.mem_cons_self⟩ hcover
        · rename_i hremoval
          rw [List.mem_append, ih, List.mem_singleton]
          constructor
          · rintro (⟨hpath, hkept⟩ | rfl)
            · exact ⟨hpath, .inr ⟨hkept, fun h => hremoval h.1⟩⟩
            · exact ⟨rfl, .inl rfl⟩
          · rintro ⟨hpath, rfl | ⟨hkept, -⟩⟩
            · exact .inr rfl
            · exact .inl ⟨hpath, hkept⟩
      · rw [inForce_concat_of_ne hsweeps hp, ih]
        refine and_congr_right fun hpath => ?_
        have hne : d ≠ e := fun h => hp (h ▸ hpath)
        have hcover : ¬(e.IsRemoval ∧ e.path ∈ d.path :: d.path.ancestors) := by
          rintro ⟨hremoval, hmem⟩
          rw [hpath] at hmem
          rcases List.mem_cons.1 hmem with heq | habove
          · exact hp heq
          · exact hsweeps ⟨hremoval, habove⟩
        simp only [hne, hcover, not_false_eq_true, and_true, false_or]

/-- Where nothing is ever removed, all declarations are kept. -/
theorem isKept_of_not_isRemoved (hopen : ¬IsRemoved ds d.path) (hd : d ∈ ds) : d.IsKept ds := by
  obtain ⟨before, after, rfl⟩ := List.append_of_mem hd
  refine ⟨before, after, rfl, ?_⟩
  rintro ⟨e, he, hcover⟩
  exact hopen ⟨e, by simp [he], hcover⟩

/-! ## Graphs -/

namespace Graph

variable {g : Graph} {strictness : Strictness}

theorem not_isRemoved_of_build (h : build strictness ds = .ok g) {n : Node} (hn : n ∈ g.nodes)
    (hcreated : n.state ≠ .absent) : ¬IsRemoved ds n.path := by
  intro hremoved
  obtain ⟨b, hadd, hfinish⟩ := exists_addAll_of_build h
  obtain rfl := Builder.addEach_of_addAll hadd
  have hopen := ((Builder.Reachable.new strictness).addEach ds).isOpen
  exact hcreated ((Builder.knows_addEach strictness ds).absent hopen hfinish hn hremoved)

/-- Whether a node waits for a path at which something is created. -/
def Meets (g : Graph) (n : Node) (required : TargetPath) : Prop :=
  required ∈ n.dependencies.keys ∧ ∃ m ∈ g.nodes, m.path = required ∧ m.state ≠ .absent

theorem IsBuilt.meets {b : Builder} {drafts : Drafts} (h : g.IsBuilt ds b drafts) {n : Node} (hn : n ∈ g.nodes)
    (hpath : d.path = n.path) (hkept : d.IsKept ds) {q : TargetPath} (hq : q ∈ d.requires) : g.Meets n q := by
  have hcounts := mem_fromRemoval_inForce_iff.2 ⟨hpath, hkept⟩
  obtain ⟨draft, hcomes⟩ := h.exists_comesFrom hn
  exact ⟨hcomes.mem_dependencies_iff.2 (.inl ⟨d, hcounts, hq⟩), h.met hn ⟨d, hcounts, hq⟩⟩

/-- What a node keeps of the requirements of its declarations. -/
structure KeepsRequirements (g : Graph) (ds : List Declaration) (n : Node) : Prop where
  /-- Where something is created, whatever a declaration at the path requires is met. -/
  created : n.state ≠ .absent → ∀ d : Declaration, d ∈ ds → d.path = n.path → ∀ q ∈ d.requires, g.Meets n q
  /-- Where something is removed, that holds of a removal after which neither the path nor one above it is removed
      again. -/
  removed : n.state = .absent → ∀ d : Declaration, d.path = n.path → d.IsRemoval → d.IsKept ds →
    ∀ q ∈ d.requires, g.Meets n q
  /-- Besides the containing directory there is no other dependency. -/
  only : ∀ q ∈ n.dependencies.keys, n.path.parent? = some q ∨
    ∃ d : Declaration, d.path = n.path ∧ d.IsKept ds ∧ q ∈ d.requires

/-- No requirement is dropped, unless a removal at the path or above it makes the declaration void. -/
theorem build_keepsRequirements (h : build strictness ds = .ok g) {n : Node} (hn : n ∈ g.nodes) :
    g.KeepsRequirements ds n := by
  obtain ⟨b, drafts, hbuilt⟩ := exists_isBuilt h
  refine ⟨fun hcreated d hd hpath q hq => ?_, fun _ d hpath _ hkept q hq => hbuilt.meets hn hpath hkept hq,
    fun q hq => ?_⟩
  · have hopen := not_isRemoved_of_build h hn hcreated
    exact hbuilt.meets hn hpath (isKept_of_not_isRemoved (hpath ▸ hopen) hd) hq
  · obtain ⟨draft, hcomes⟩ := hbuilt.exists_comesFrom hn
    rcases hcomes.mem_dependencies_iff.1 hq with ⟨d, hcounts, hdq⟩ | ⟨hparent, -⟩
    · obtain ⟨hpath, hkept⟩ := mem_fromRemoval_inForce_iff.1 hcounts
      exact .inr ⟨d, hpath, hkept, hdq⟩
    · exact .inl hparent

/-- A directory that waits for two others, one of which it only needs for its mode, and a removal that waits for it. -/
def posted : List Declaration :=
  [⟨⟨["outbox"], by decide⟩, .entry (.bare .directory), ⟨"post", 0⟩, [], by decide, by decide⟩,
    ⟨⟨["inbox"], by decide⟩, .entry (.bare .directory), ⟨"post", 1⟩, [⟨["outbox"], by decide⟩], by decide, by decide⟩,
    ⟨⟨["inbox"], by decide⟩, .permissions ⟨some ⟨0o700⟩, none, none⟩, ⟨"post", 2⟩, [⟨["tray"], by decide⟩], by decide,
      by decide⟩,
    ⟨⟨["tray"], by decide⟩, .entry (.bare .directory), ⟨"post", 3⟩, [], by decide, by decide⟩,
    ⟨⟨["draft"], by decide⟩, .absent, ⟨"post", 4⟩, [⟨["inbox"], by decide⟩], by decide, by decide⟩]

/-- The directory keeps both requirements, and the removal its own. -/
theorem posted_keepsRequirements : ∃ g, build .lenient posted = .ok g ∧ (∀ n ∈ g.nodes, g.KeepsRequirements posted n) ∧
    g.nodes.map (fun n => (n.path.text, n.dependencies.keys.map (·.text))) =
      [("/", []), ("/draft", ["/", "/inbox"]), ("/inbox", ["/", "/outbox", "/tray"]), ("/outbox", ["/"]),
        ("/tray", ["/"])] := by
  have hrun : (build .lenient posted).toOption.map
      (fun g => g.nodes.map fun n => (n.path.text, n.dependencies.keys.map (·.text))) =
      some [("/", []), ("/draft", ["/", "/inbox"]), ("/inbox", ["/", "/outbox", "/tray"]), ("/outbox", ["/"]),
        ("/tray", ["/"])] := by cbv
  cases hbuild : build .lenient posted with
  | error e => rw [hbuild] at hrun; cases hrun
  | ok g =>
    rw [hbuild] at hrun
    exact ⟨g, rfl, fun n hn => build_keepsRequirements hbuild hn, Option.some.inj hrun⟩

/-- A removal that waits for a pipe, and then the same removal without the requirement. -/
def retracted : List Declaration :=
  [⟨⟨["memo"], by decide⟩, .entry (.bare .fifo), ⟨"post", 0⟩, [], by decide, by decide⟩,
    ⟨⟨["note"], by decide⟩, .absent, ⟨"post", 1⟩, [⟨["memo"], by decide⟩], by decide, by decide⟩,
    ⟨⟨["note"], by decide⟩, .absent, ⟨"post", 2⟩, [], by decide, by decide⟩]

/-- The second removal drops what the first one requires, though nothing above the path is removed. -/
theorem retracted_drops : ∃ g, build .lenient retracted = .ok g ∧ ∃ n ∈ g.nodes, n.state = .absent ∧
    ∃ before after, ∃ d : Declaration, retracted = before ++ d :: after ∧ d.path = n.path ∧ d.IsRemoval ∧
      (∀ e ∈ after, e.IsRemoval → e.path ∉ d.path.ancestors) ∧ ∃ q ∈ d.requires, q ∉ n.dependencies.keys := by
  have hrun : ((build .lenient retracted).toOption.map fun g => g.nodes.any fun n =>
      n.path = ⟨["note"], by decide⟩ ∧ n.state = .absent ∧ ⟨["memo"], by decide⟩ ∉ n.dependencies.keys) = some true := by
    cbv
  cases hbuild : build .lenient retracted with
  | error e => rw [hbuild] at hrun; cases hrun
  | ok g =>
    rw [hbuild] at hrun
    obtain ⟨n, hn, hnode⟩ := List.any_eq_true.1 (Option.some.inj hrun)
    obtain ⟨hpath, hstate, hdropped⟩ := of_decide_eq_true hnode
    refine ⟨g, rfl, n, hn, hstate, [_], [_], _, rfl, hpath.symm, rfl, ?_, _, List.mem_singleton_self _, hdropped⟩
    simp only [TargetPath.mem_ancestors_iff]
    decide

end Graph

end Provision
