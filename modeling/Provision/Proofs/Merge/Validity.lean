import Provision.Proofs.Merge.Outcome

/-! # Nodes are valid

Merging makes nothing up: whatever a node has, some declaration had, so that all checks made on
declarations hold of nodes.

* `permissions_fault?_eq_none_iff`, `EntrySpec.IsValid` — the checks, field by field.
* `Node.IsValid` — all that was checked; `Graph.isValid_of_build` — every node of a built graph.
-/

namespace Provision

/-! ## Checks -/

theorem permissions_fault?_eq_none_iff {p : Permissions} :
    p.fault? = none ↔ (∀ m, p.mode = some m → m.fault? = none) ∧
      (∀ o, p.owner = some o → o.fault? = none) ∧ ∀ o, p.group = some o → o.fault? = none := by
  simp only [Permissions.fault?, Option.or_eq_none_iff, Option.map_eq_none_iff,
    Option.bind_eq_none_iff]

/-- Whether an entry and its permissions pass their checks. -/
structure EntrySpec.IsValid (spec : EntrySpec) : Prop where
  permissions : spec.permissions.fault? = none
  entry : spec.entry.fault? = none

/-- Whether all that a node creates passes the checks that declarations pass. -/
structure Node.IsValid (n : Node) : Prop where
  spec : ∀ spec, n.state.entry? = some spec → spec.IsValid
  xattrs : ∀ name value, n.xattrs.find? name = some value → (Attribute.mk name value).fault? = none

/-! ## Declarations -/

namespace Declaration

theorem isValid_of_entry? {d : Declaration} {spec : EntrySpec} (h : d.entry? = some spec) :
    spec.IsValid := by
  have hvalid := d.valid
  unfold entry? at h
  split at h
  · rename_i spec' hresource
    cases h
    rw [hresource, Resource.fault?, Option.or_eq_none_iff, Option.or_eq_none_iff] at hvalid
    exact ⟨hvalid.1.1, hvalid.1.2⟩
  · cases h

theorem fault?_of_permissions? {d : Declaration} {permissions : Permissions}
    (h : d.permissions? = some permissions) : permissions.fault? = none := by
  have hvalid := d.valid
  unfold permissions? at h
  split at h
  · rename_i permissions' hresource
    cases h
    rw [hresource, Resource.fault?] at hvalid
    split at hvalid
    · cases hvalid
    · exact hvalid
  · cases h

theorem fault?_of_attribute? {d : Declaration} {name : String} {value : Octets}
    (h : d.attribute? name = some value) : (Attribute.mk name value).fault? = none := by
  have hvalid := d.valid
  unfold attribute? at h
  split at h
  · rename_i xattr hresource
    split at h
    · rename_i hname
      cases h
      rw [hresource, Resource.fault?] at hvalid
      rwa [← hname]
    · cases h
  · cases h

end Declaration

/-! ## Merged declarations -/

theorem fault?_lastSet (ds : List Declaration) : (lastSet ds).fault? = none := by
  have hfield : ∀ {α : Type} {field : Permissions → Option α} {a : α},
      lastOf (fun d => d.permissions?.bind field) ds = some a →
      ∃ permissions, permissions.fault? = none ∧ field permissions = some a := by
    intro α field a h
    obtain ⟨d, -, hd⟩ := exists_of_lastOf h
    obtain ⟨permissions, hpermissions, ha⟩ := Option.bind_eq_some_iff.1 hd
    exact ⟨permissions, d.fault?_of_permissions? hpermissions, ha⟩
  refine permissions_fault?_eq_none_iff.2 ⟨fun m hm => ?_, fun o ho => ?_, fun o ho => ?_⟩
  · obtain ⟨permissions, hvalid, hmode⟩ := hfield hm
    exact (permissions_fault?_eq_none_iff.1 hvalid).1 m hmode
  · obtain ⟨permissions, hvalid, howner⟩ := hfield ho
    exact (permissions_fault?_eq_none_iff.1 hvalid).2.1 o howner
  · obtain ⟨permissions, hvalid, hgroup⟩ := hfield ho
    exact (permissions_fault?_eq_none_iff.1 hvalid).2.2 o hgroup

theorem fault?_overlaid {p later : Permissions} (hp : p.fault? = none)
    (hlater : later.fault? = none) : (p.overlaid later).fault? = none := by
  rw [permissions_fault?_eq_none_iff] at *
  refine ⟨fun m hm => ?_, fun o ho => ?_, fun o ho => ?_⟩
  · rcases Option.or_eq_some_iff.1 hm with hm | ⟨-, hm⟩
    · exact hlater.1 m hm
    · exact hp.1 m hm
  · rcases Option.or_eq_some_iff.1 ho with ho | ⟨-, ho⟩
    · exact hlater.2.1 o ho
    · exact hp.2.1 o ho
  · rcases Option.or_eq_some_iff.1 ho with ho | ⟨-, ho⟩
    · exact hlater.2.2 o ho
    · exact hp.2.2 o ho

theorem isValid_of_mergedSpec? {ds : List Declaration} {spec : EntrySpec}
    (h : mergedSpec? ds = some spec) : spec.IsValid := by
  obtain ⟨last, hlast, rfl⟩ := Option.map_eq_some_iff.1 h
  obtain ⟨d, -, hd⟩ := exists_of_lastOf hlast
  have hvalid := d.isValid_of_entry? hd
  exact ⟨fault?_overlaid hvalid.permissions (fault?_lastSet ds), hvalid.entry⟩

/-- Every node of a built graph passes the checks that declarations pass. -/
theorem Graph.isValid_of_build {strictness : Strictness} {ds : List Declaration} {g : Graph}
    (h : build strictness ds = .ok g) {n : Node} (hn : n ∈ g.nodes) : n.IsValid := by
  obtain ⟨b, drafts, hbuilt⟩ := exists_isBuilt h
  obtain ⟨draft, hcomes⟩ := hbuilt.exists_comesFrom hn
  refine ⟨fun spec hspec => ?_, fun name value hvalue => ?_⟩
  · cases hstate : n.state with
    | absent =>
      rw [hstate] at hspec
      cases hspec
    | declared declared =>
      rw [hstate] at hspec
      cases hspec
      exact isValid_of_mergedSpec? ((hcomes.declared_iff _).1 hstate).1
    | implicit permissions =>
      rw [hstate] at hspec
      cases hspec
      obtain ⟨-, hpermissions⟩ := (hcomes.implicit_iff _).1 hstate
      exact ⟨hpermissions ▸ fault?_lastSet _, rfl⟩
  · rw [hcomes.xattrs, hcomes.reflects.xattrs] at hvalue
    obtain ⟨d, -, hd⟩ := exists_of_lastOf hvalue
    exact d.fault?_of_attribute? hd

end Provision
