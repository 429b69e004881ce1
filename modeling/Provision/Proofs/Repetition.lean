import Provision.Proofs.Extraction
import Provision.Proofs.Relabelling
import Provision.Proofs.Merge.Repetition

/-! # Inputs given twice

Declarations that are all made a second time, in the same order behind the first, compile to what they compile to when
made once; only provenances show that they were. This takes that nothing is removed, as an archive does as well.

* `exists_removal_inForce` — where something is removed, a removal is in force at some path.
* `not_removal_of_compile` — nothing is removed in what compiles to an archive.
* `compile_append_self` — the statement.
-/

namespace Provision

/-! ## Removals and archives -/

/-- The last removal is in force at its path. -/
theorem exists_removal_inForce {ds : List Declaration} {d : Declaration} (hd : d ∈ ds) (hremoval : d.IsRemoval) :
    ∃ p, ∃ d ∈ inForce p ds, d.IsRemoval := by
  induction ds using List.reverseRecOn with
  | nil => cases hd
  | append_singleton ds last ih =>
    by_cases hlast : last.IsRemoval
    · exact ⟨last.path, last, by rw [inForce_concat_self]; simp, hlast⟩
    · -- What comes last sweeps nothing away.
      have hbefore : d ∈ ds := by
        rcases List.mem_append.1 hd with hd | hd
        · exact hd
        · exact absurd hremoval (List.mem_singleton.1 hd ▸ hlast)
      obtain ⟨p, r, hr, hr'⟩ := ih hbefore
      refine ⟨p, r, ?_, hr'⟩
      by_cases hp : last.path = p
      · subst hp
        rw [inForce_concat_self]
        exact List.mem_append_left _ hr
      · rwa [inForce_concat_of_ne (fun hsweeps => hlast hsweeps.1) hp]

theorem Backend.not_absent_of_bytes {options : ArchiveOptions} {s : Sequence} {octets : Octets}
    (h : (archive options).bytes s = .ok octets) {n : Node} (hn : n ∈ s.nodes) : n.state ≠ .absent := by
  intro habsent
  have hfault : (archive options).fault? s = none := by
    rw [bytes] at h
    split at h
    · cases h
    · assumption
  have hnode := List.findSome?_eq_none_iff.1 hfault n hn
  rw [Node.isRemoval, habsent] at hnode
  cases hnode

/-- Nothing is removed in what compiles to an archive. -/
theorem not_removal_of_compile {strictness : Strictness} {options : ArchiveOptions} {ds : List Declaration}
    {a : Artifact} (h : compile strictness (.archive options) ds = .ok a) : ∀ d ∈ ds, ¬d.IsRemoval := by
  intro d hd hremoval
  obtain ⟨p, r, hr, hremoved⟩ := exists_removal_inForce hd hremoval
  rw [compile] at h
  cases hresolve : resolve strictness ds with
  | error e =>
    rw [hresolve] at h
    cases h
  | ok s =>
    rw [hresolve] at h
    obtain ⟨g, b, drafts, -, hbuilt, hleast⟩ := exists_isBuilt_of_resolve hresolve
    obtain ⟨n, hfind, habsent⟩ := (hbuilt.exists_absent_iff p).2 ⟨r, hr, hremoved⟩
    have hn : n ∈ s.nodes := hleast.perm.mem_iff.2 (Graph.find?_eq_some_iff.1 hfind).1
    cases hbytes : (Backend.archive options).bytes s with
    | error e =>
      simp only [hbytes] at h
      cases h
    | ok octets => exact Backend.not_absent_of_bytes hbytes hn habsent

/-! ## Twice -/

/-- The node but for its provenances. -/
def Node.unsourced (n : Node) : Node := { n with provenance := [] }

theorem Node.unsourced_relabel (n : Node) : (n.relabel .unsourced).unsourced = n.unsourced := rfl

theorem resolve_append_self (strictness : Strictness) {ds : List Declaration} (hds : ∀ d ∈ ds, ¬d.IsRemoval) :
    (resolve strictness (ds ++ ds)).toOption.map (fun s => s.nodes.map (·.relabel .unsourced)) =
      (resolve strictness ds).toOption.map (fun s => s.nodes.map (·.relabel .unsourced)) := by
  apply resolve_congr
  apply Builder.addAll_congr
  · simpa using hds
  · exact hds
  · intro p
    simp
  · intro p hne
    exact mergedAt?_append_self strictness hds (by simpa using hne)

theorem isOk_compile_plan (strictness : Strictness) (format : PlanFormat) (ds : List Declaration) :
    (compile strictness (.plan format) ds).isOk = (resolve strictness ds).isOk := by
  rw [compile]
  cases resolve strictness ds <;> rfl

theorem isOk_of_toOption_map {ε α β : Type} {f : α → β} {result result' : Except ε α}
    (h : result.toOption.map f = result'.toOption.map f) : result.isOk = result'.isOk := by
  cases result with
  | error e =>
    cases result' with
    | error e' => rfl
    | ok a' => cases h
  | ok a =>
    cases result' with
    | error e' => cases h
    | ok a' => rfl

/-- Made twice, declarations that remove nothing resolve to the same sequence but for provenances, and with that to
    the same archive and to the same plan in text. What compiles to an archive removes nothing. -/
theorem compile_append_self (strictness : Strictness) (ds : List Declaration) :
    ((∀ d ∈ ds, ¬d.IsRemoval) →
      (resolve strictness (ds ++ ds)).toOption.map (fun s => s.nodes.map Node.unsourced) =
          (resolve strictness ds).toOption.map (fun s => s.nodes.map Node.unsourced) ∧
      (∀ backend, (compile strictness backend (ds ++ ds)).isOk = (compile strictness backend ds).isOk) ∧
      ∀ backend, backend ≠ .plan .json →
        (compile strictness backend (ds ++ ds)).toOption.map (fun a => (a.bytes, a.fingerprint)) =
          (compile strictness backend ds).toOption.map (fun a => (a.bytes, a.fingerprint))) ∧
    ∀ options a, compile strictness (.archive options) ds = .ok a → ∀ d ∈ ds, ¬d.IsRemoval := by
  refine ⟨fun hds => ?_, fun options a h => not_removal_of_compile h⟩
  have hresolve := resolve_append_self strictness hds
  have houtput : ∀ backend, backend ≠ .plan .json →
      (compile strictness backend (ds ++ ds)).toOption.map (fun a => (a.bytes, a.fingerprint)) =
        (compile strictness backend ds).toOption.map (fun a => (a.bytes, a.fingerprint)) :=
    fun backend hbackend => compile_congr .unsourced backend (fun h => absurd h hbackend) hresolve
  refine ⟨?_, fun backend => ?_, houtput⟩
  · have := congrArg (Option.map fun nodes => nodes.map Node.unsourced) hresolve
    simpa only [Option.map_map, Function.comp_def, List.map_map, Node.unsourced_relabel] using this
  · -- A plan in JSON shows provenances, so its bytes differ; but a plan is made of every sequence.
    by_cases hbackend : backend = .plan .json
    · rw [hbackend, isOk_compile_plan, isOk_compile_plan, isOk_of_toOption_map hresolve]
    · exact isOk_of_toOption_map (houtput backend hbackend)

def revised : List Declaration :=
  [⟨⟨["data"], by decide⟩, .entry (.bare .directory), ⟨"site", 0⟩, [], by decide, by decide⟩,
    ⟨⟨["data"], by decide⟩, .permissions ⟨some ⟨0o755⟩, none, none⟩, ⟨"site", 1⟩, [], by decide, by decide⟩,
    ⟨⟨["data"], by decide⟩, .permissions ⟨some ⟨0o700⟩, none, none⟩, ⟨"site", 2⟩, [], by decide, by decide⟩,
    ⟨⟨["hosts"], by decide⟩, .entry (.bare (.file [72, 105])), ⟨"site", 3⟩, [⟨["data"], by decide⟩], by decide,
      by decide⟩,
    ⟨⟨["hosts"], by decide⟩, .entry (.bare (.file [72, 111])), ⟨"site", 4⟩, [], by decide, by decide⟩]

/-- The second time every value is revised twice, and the archive is the same. -/
theorem revised_append_self : (∀ d ∈ revised, ¬d.IsRemoval) ∧
    ∃ a a', compile .lenient (.archive ⟨7⟩) revised = .ok a ∧
      compile .lenient (.archive ⟨7⟩) (revised ++ revised) = .ok a' ∧ a'.bytes = a.bytes ∧
      (resolve .lenient revised).toOption.map (·.warnings.length) = some 2 ∧
      (resolve .lenient (revised ++ revised)).toOption.map (·.warnings.length) = some 6 := by
  have hrun : (resolve .lenient revised).toOption.map (fun s => ((Backend.archive ⟨7⟩).fault? s).isNone) =
      some true := by cbv
  cases hs : resolve .lenient revised with
  | error e => rw [hs] at hrun; cases hrun
  | ok s =>
    rw [hs] at hrun
    have hcompile : ∃ a, compile .lenient (.archive ⟨7⟩) revised = .ok a := by
      rw [compile, hs]
      simp only [Backend.bytes, Option.isNone_iff_eq_none.1 (Option.some.inj hrun)]
      exact ⟨_, rfl⟩
    obtain ⟨a, ha⟩ := hcompile
    obtain ⟨htwice, hremoval⟩ := compile_append_self .lenient revised
    have hrevised := hremoval ⟨7⟩ a ha
    have houtput := (htwice hrevised).2.2 (.archive ⟨7⟩) (by simp)
    cases ha' : compile .lenient (.archive ⟨7⟩) (revised ++ revised) with
    | error e => rw [ha, ha'] at houtput; cases houtput
    | ok a' =>
      rw [ha, ha'] at houtput
      exact ⟨hrevised, a, a', ha, rfl, congrArg Prod.fst (Option.some.inj houtput), by rw [← hs]; cbv, by cbv⟩

end Provision
