import Provision.Proofs.Relabelling
import Provision.Proofs.Merge.Locality

/-! # Declarations in another order

Where nothing is removed, the output does not depend on how declarations at different paths follow each other; only
the order of those at one path counts.

* `IsInterleaving` — the same declarations, in the same order at each path.
* `mergedAt?_interleaved` — they merge to the same at each path, but for the position.
* `compile_interleaved` — they compile to the same output, whatever the backend.
-/

namespace Provision

/-- The second list has the declarations of the first in another order, but at each path in the same. -/
structure IsInterleaving (ds ds' : List Declaration) : Prop where
  perm : ds'.Perm ds
  ordered : ∀ p, ds'.filter (·.path = p) = ds.filter (·.path = p)

theorem fresh_placedAt (order order' : Nat) : (Draft.fresh order).placedAt order' = .fresh order' := rfl

/-- Only the position tells where between others the first declaration at a path was. -/
theorem mergedAt?_interleaved {ds ds' : List Declaration} (h : IsInterleaving ds ds') (strictness : Strictness)
    (p : TargetPath) :
    (mergedAt? strictness p ds).map (·.relabel (.moved fun _ => 0)) =
      (mergedAt? strictness p ds').map (·.relabel (.moved fun _ => 0)) := by
  simp only [mergedAt?, Draft.relabel_moved, h.ordered, ← Draft.acceptAll?_placedAt, fresh_placedAt]

theorem compile_interleaved (strictness : Strictness) (backend : Backend) {ds ds' : List Declaration}
    (h : IsInterleaving ds ds') (hds : ∀ d ∈ ds, ¬d.IsRemoval) :
    (compile strictness backend ds).toOption.map (fun a => (a.bytes, a.fingerprint)) =
      (compile strictness backend ds').toOption.map (fun a => (a.bytes, a.fingerprint)) := by
  have hds' : ∀ d ∈ ds', ¬d.IsRemoval := fun d hd => hds d (h.perm.mem_iff.1 hd)
  have hmerged := Builder.addAll_congr (.moved fun _ => 0) strictness hds hds'
    (fun p => by rw [h.ordered]) fun p _ => mergedAt?_interleaved h strictness p
  exact compile_congr (.moved fun _ => 0) backend (fun _ _ => rfl) (resolve_congr _ hmerged)

def grouped : List Declaration :=
  [⟨⟨["var"], by decide⟩, .entry (.bare .directory), ⟨"site", 0⟩, [], by decide, by decide⟩,
    ⟨⟨["var"], by decide⟩, .permissions ⟨some ⟨0o750⟩, none, none⟩, ⟨"site", 1⟩, [], by decide, by decide⟩,
    ⟨⟨["issue"], by decide⟩, .entry (.bare (.file [72, 105])), ⟨"site", 2⟩, [⟨["var"], by decide⟩], by decide,
      by decide⟩]

def woven : List Declaration :=
  [⟨⟨["var"], by decide⟩, .entry (.bare .directory), ⟨"site", 0⟩, [], by decide, by decide⟩,
    ⟨⟨["issue"], by decide⟩, .entry (.bare (.file [72, 105])), ⟨"site", 2⟩, [⟨["var"], by decide⟩], by decide,
      by decide⟩,
    ⟨⟨["var"], by decide⟩, .permissions ⟨some ⟨0o750⟩, none, none⟩, ⟨"site", 1⟩, [], by decide, by decide⟩]

theorem woven_compiles : IsInterleaving grouped woven ∧ (∀ d ∈ grouped, ¬d.IsRemoval) ∧
    ∃ a a', compile .strict (.plan .json) grouped = .ok a ∧ compile .strict (.plan .json) woven = .ok a' ∧
      a.bytes = a'.bytes := by
  have hgrouped : ∀ d ∈ grouped, ¬d.IsRemoval := by decide
  have hwoven : IsInterleaving grouped woven := by
    refine ⟨by decide, fun p => ?_⟩
    by_cases hp : (⟨["var"], by decide⟩ : TargetPath) = p
    · subst hp
      decide
    · simp [grouped, woven, List.filter_cons, hp]
  have hrun : (resolve .strict grouped).isOk := by cbv
  have hoption := compile_interleaved .strict (.plan .json) hwoven hgrouped
  cases hs : resolve .strict grouped with
  | error e => rw [hs] at hrun; cases hrun
  | ok s =>
    have hcompile : ∃ a, compile .strict (.plan .json) grouped = .ok a := by
      rw [compile, hs]
      exact ⟨_, rfl⟩
    obtain ⟨a, hcompile⟩ := hcompile
    rw [hcompile] at hoption
    cases hcompile' : compile .strict (.plan .json) woven with
    | error e => rw [hcompile'] at hoption; cases hoption
    | ok a' =>
      rw [hcompile'] at hoption
      exact ⟨hwoven, hgrouped, a, a', hcompile, rfl, congrArg Prod.fst (Option.some.inj hoption)⟩

end Provision
