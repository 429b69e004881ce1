import Provision.Manifest.Conversion
import Provision.Proofs.Note

/-! # Pushed declarations

A manifest grows at its end: what is pushed is parsed and put behind what is there, and numbered by its place.

* `Saying` — a declaration without its provenance; `ResourceTable.sayings` — what a table says at a path.
* `Manifest.Extends` — a manifest with some sayings more; `Manifest.push_extends` — one; `Manifest.foldlM_push_extends` —
  the groups of a table.
-/

namespace Provision

/-! ## Sayings -/

/-- What a declaration says, wherever it is said. -/
structure Saying where
  path : TargetPath
  resource : Resource
  requires : List TargetPath
  deriving DecidableEq

def Declaration.saying (d : Declaration) : Saying := ⟨d.path, d.resource, d.requires⟩

/-- The paths that texts spell. -/
def Spells (texts : List String) (paths : List TargetPath) : Prop :=
  List.Forall₂ (fun text path => TargetPath.parse text = .ok path) texts paths

/-- What a table says at a path: the resource with the requirements of the table, and its attributes in the order of
    their names. -/
def ResourceTable.sayings (table : ResourceTable) (path : TargetPath) (resource : Resource)
    (required : List TargetPath) : List Saying :=
  ⟨path, resource, required.eraseDups⟩ ::
    table.xattrs.entries.map fun (name, value) => ⟨path, .xattr ⟨name, utf8 value⟩, []⟩

/-! ## Declarations -/

namespace Declaration

variable {d d' : Declaration}

theorem make_eq_ok {path : String} {resource : Resource} {provenance : Provenance}
    (h : make path resource provenance = .ok d) :
    TargetPath.parse path = .ok d.path ∧ d.resource = resource ∧ d.provenance = provenance ∧ d.requires = [] := by
  rw [make] at h
  split at h
  · cases h
  · rename_i target hparse
    split at h
    · cases h
    · cases h
      exact ⟨hparse, rfl, rfl, rfl⟩

/-- A requirement is put behind the others, unless it is there. -/
theorem require_eq_ok {raw : String} (h : d.require raw = .ok d') :
    ∃ required, TargetPath.parse raw = .ok required ∧ d'.path = d.path ∧ d'.resource = d.resource ∧
      d'.provenance = d.provenance ∧
      d'.requires = if required ∈ d.requires then d.requires else d.requires ++ [required] := by
  rw [require] at h
  split at h
  · cases h
  · rename_i required hparse
    split at h
    · cases h
    · split at h
      · rename_i hmem
        cases h
        exact ⟨required, hparse, rfl, rfl, rfl, (if_pos hmem).symm⟩
      · rename_i hmem
        cases h
        exact ⟨required, hparse, rfl, rfl, rfl, (if_neg hmem).symm⟩

theorem eraseDups_concat (paths : List TargetPath) (path : TargetPath) : (paths ++ [path]).eraseDups =
    if path ∈ paths.eraseDups then paths.eraseDups else paths.eraseDups ++ [path] := by
  rw [List.eraseDups_append]
  by_cases hmem : path ∈ paths <;> simp [hmem, List.removeAll, List.eraseDups_cons]

theorem requiring_eq_ok {raws : List String} {before : List TargetPath} (h : d.requiring raws = .ok d')
    (hbefore : d.requires = before.eraseDups) :
    ∃ required, Spells raws required ∧ d'.path = d.path ∧ d'.resource = d.resource ∧ d'.provenance = d.provenance ∧
      d'.requires = (before ++ required).eraseDups := by
  induction raws generalizing d before with
  | nil =>
    cases h
    exact ⟨[], .nil, rfl, rfl, rfl, by rw [hbefore, List.append_nil]⟩
  | cons raw rest ih =>
    -- Put in or left out, the path counts once with those before.
    rw [requiring, List.foldlM_cons] at h
    obtain ⟨next, hnext, hrest⟩ := Except.bind_eq_ok_iff.1 h
    obtain ⟨path, hparse, hpath, hresource, hprovenance, hrequires⟩ := require_eq_ok hnext
    rw [hbefore, ← eraseDups_concat] at hrequires
    obtain ⟨required, hspells, hpath', hresource', hprovenance', hrequires'⟩ := ih hrest hrequires
    refine ⟨path :: required, .cons hparse hspells, hpath'.trans hpath, hresource'.trans hresource,
      hprovenance'.trans hprovenance, ?_⟩
    rw [hrequires', List.append_assoc, List.singleton_append]

end Declaration

/-! ## Manifests -/

namespace Manifest

/-- Whether each declaration has its place in the manifest for its provenance. -/
def IsNumbered (m : Manifest) : Prop :=
  m.declarations.map (·.provenance) = (List.range m.size).map fun k => ⟨m.id, k⟩

/-- The second manifest is the first with some sayings more. -/
structure Extends (m m' : Manifest) (said : List Saying) : Prop where
  id : m'.id = m.id
  said : m'.declarations.map (·.saying) = m.declarations.map (·.saying) ++ said
  numbered : m.IsNumbered → m'.IsNumbered

theorem Extends.refl (m : Manifest) : m.Extends m [] := ⟨rfl, (List.append_nil _).symm, fun hm => hm⟩

theorem Extends.trans {m m' m'' : Manifest} {said said' : List Saying} (h : m.Extends m' said)
    (h' : m'.Extends m'' said') : m.Extends m'' (said ++ said') where
  id := h'.id.trans h.id
  said := by rw [h'.said, h.said, List.append_assoc]
  numbered hm := h'.numbered (h.numbered hm)

variable {m m' : Manifest} {table : ResourceTable}

theorem push_extends {path : String} {resource : Resource} {requires : List String}
    (h : m.push path resource requires = .ok m') : ∃ target required, TargetPath.parse path = .ok target ∧
      Spells requires required ∧ m.Extends m' [⟨target, resource, required.eraseDups⟩] := by
  rw [push] at h
  obtain ⟨bare, hmake, hbare⟩ := Except.bind_eq_ok_iff.1 h
  obtain ⟨d, hrequiring, hpush⟩ := Except.bind_eq_ok_iff.1 hbare
  cases hpush
  obtain ⟨hparse, hresource, hprovenance, hrequires⟩ := Declaration.make_eq_ok hmake
  have hnone : bare.requires = ([] : List TargetPath).eraseDups := hrequires
  obtain ⟨required, hspells, hpath, hresource', hprovenance', hrequires'⟩ := Declaration.requiring_eq_ok hrequiring hnone
  refine ⟨bare.path, required, hparse, hspells, rfl, ?_, fun hm => ?_⟩
  · simp [Declaration.saying, hpath, hresource', hresource, hrequires']
  · have hlast : d.provenance = ⟨m.id, m.size⟩ := hprovenance'.trans hprovenance
    have hsize : (m.declarations ++ [d]).length = m.size + 1 := List.length_append
    rw [IsNumbered] at hm
    rw [IsNumbered, size, hsize, List.map_append, hm, List.range_succ, List.map_append, List.map_singleton, hlast]
    rfl

/-- Whether some sayings are those of a table for one placement. -/
def IsGroup (table : ResourceTable) (placement : ResourceTable.Placement) (said : List Saying) : Prop :=
  ∃ target required, TargetPath.parse placement.1 = .ok target ∧ Spells table.requires required ∧
    said = table.sayings target placement.2 required

theorem foldlM_attributes_extends {path : String} {target : TargetPath} (hparse : TargetPath.parse path = .ok target)
    {attributes : List (String × String)}
    (h : attributes.foldlM (fun m (name, value) => m.push path (.xattr ⟨name, utf8 value⟩) []) m = .ok m') :
    m.Extends m' (attributes.map fun (name, value) => ⟨target, .xattr ⟨name, utf8 value⟩, []⟩) := by
  induction attributes generalizing m with
  | nil =>
    cases h
    exact .refl _
  | cons head rest ih =>
    rw [List.foldlM_cons] at h
    obtain ⟨next, hnext, hrest⟩ := Except.bind_eq_ok_iff.1 h
    obtain ⟨target', required, hparse', hspells, hextends⟩ := push_extends hnext
    cases hparse.symm.trans hparse'
    cases hspells
    exact hextends.trans (ih hrest)

theorem pushWithAttributes_extends {placement : ResourceTable.Placement}
    (h : pushWithAttributes table m placement = .ok m') : ∃ said, IsGroup table placement said ∧ m.Extends m' said := by
  rw [pushWithAttributes] at h
  obtain ⟨next, hnext, hrest⟩ := Except.bind_eq_ok_iff.1 h
  obtain ⟨target, required, hparse, hspells, hextends⟩ := push_extends hnext
  exact ⟨_, ⟨target, required, hparse, hspells, rfl⟩, hextends.trans (foldlM_attributes_extends hparse hrest)⟩

/-- What a table says for its placements, one after the other. -/
theorem foldlM_placements_extends {placed : List ResourceTable.Placement}
    (h : placed.foldlM (pushWithAttributes table) m = .ok m') :
    ∃ groups, List.Forall₂ (IsGroup table) placed groups ∧ m.Extends m' groups.flatten := by
  induction placed generalizing m with
  | nil =>
    cases h
    exact ⟨[], .nil, .refl _⟩
  | cons placement rest ih =>
    rw [List.foldlM_cons] at h
    obtain ⟨next, hnext, hrest⟩ := Except.bind_eq_ok_iff.1 h
    obtain ⟨said, hgroup, hextends⟩ := pushWithAttributes_extends hnext
    obtain ⟨groups, hgroups, hmore⟩ := ih hrest
    exact ⟨said :: groups, .cons hgroup hgroups, hextends.trans hmore⟩

end Manifest

end Provision
