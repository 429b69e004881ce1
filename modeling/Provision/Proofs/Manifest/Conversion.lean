import Mathlib
import Provision.Proofs.Manifest.Placement
import Provision.Proofs.Manifest.Push

/-! # Converted documents

The declarations of a manifest are what its tables say, table by table: a table without a pattern says one group, at its
own path; a table with a pattern says one for each match that is kept.

* `ResourceTable.IsOwn`, `ResourceTable.IsMatch` — what one table says, by itself and for a match.
* `IsConverted` — what the tables of a document say.
* `Manifest.ofTable_isConverted` — the manifest of a document is what its tables say, numbered from the first on.
-/

namespace Provision

theorem forall₂_comp {α β γ : Type} {R : α → β → Prop} {S : β → γ → Prop} {T : α → γ → Prop}
    {as : List α} {bs : List β} {cs : List γ} (h : List.Forall₂ R as bs) (h' : List.Forall₂ S bs cs)
    (himp : ∀ a b c, R a b → S b c → T a c) : List.Forall₂ T as cs := by
  induction h generalizing cs with
  | nil =>
    cases h'
    exact .nil
  | cons hab _ ih =>
    obtain _ | ⟨hbc, hrest⟩ := h'
    exact .cons (himp _ _ _ hab hbc) (ih hrest)

namespace ResourceTable

/-! ## What a table says -/

/-- What a table without a pattern says: one resource at its path, which is the entry of the host with what is declared
    if the table takes it from there. -/
def IsOwn (t : Tree) (origin : Origin) (table : ResourceTable) (said : List Saying) : Prop :=
  ∃ path resource required, TargetPath.parse table.path = .ok path ∧ Spells table.requires required ∧
    table.resource t origin (table.sourcePath? origin) = .ok resource ∧
    (table.kind = .fromHost → ∃ source host spec, table.sourcePath? origin = some source ∧
      t.entrySpec source = .ok host ∧ Prevails table host spec ∧ resource = .entry spec) ∧
    said = table.sayings path resource required

/-- What a table with a pattern says for a match that is kept: the entry of the host with what is declared. -/
def IsMatch (t : Tree) (table : ResourceTable) (m : (String × HostPath) × TargetPath) (said : List Saying) : Prop :=
  ∃ host spec required, t.entrySpec m.1.2 = .ok host ∧ Prevails table host spec ∧ Spells table.requires required ∧
    said = table.sayings m.2 (.entry spec) required

/-- The matches of the pattern of a table, with their targets. -/
structure IsSearched (t : Tree) (origin : Origin) (table : ResourceTable) (pattern : String)
    (found : List (String × HostPath)) (targets : List TargetPath) : Prop where
  isMatches : ∃ root, table.sourcePath? origin = some root ∧ IsMatches t root pattern found
  parse : List.Forall₂ (fun m target => TargetPath.parse (table.path ++ "/" ++ m.1) = .ok target) found targets

/-! ## What a table places -/

variable {t : Tree} {origin : Origin} {claimed earlier taken taken' : List TargetPath} {table : ResourceTable}
  {placed : List Placement}

theorem search_eq_ok {root : HostPath} {pattern : String} {found : List (String × HostPath)}
    (h : (search t root pattern).result = .ok found) : t.search root pattern = .ok found := by
  simp only [search, Traced.result_bind, Traced.result_ofExcept, Traced.result_say, Traced.result_pure,
    Except.bind_eq_ok_iff] at h
  obtain ⟨found', hfound, -, -, ⟨⟩⟩ := h
  exact Except.mapError_eq_ok_iff.1 hfound

theorem place_eq_ok_of_pattern {pattern : String} (hpattern : table.pattern? = some pattern)
    (h : (table.place t origin claimed taken).result = .ok (placed, taken')) (htaken : IsTaken claimed earlier taken) :
    ∃ found targets, IsSearched t origin table pattern found targets ∧
      List.Forall₂ (IsPlaced t table) (unclaimed claimed earlier (found.zip targets)) placed ∧
      IsTaken claimed (earlier ++ targets) taken' := by
  have hkind : table.kind = .fromHost := by
    by_contra hother
    rw [pattern?, if_neg hother] at hpattern
    cases hpattern
  cases hforeign : table.foreignField? with
  | some field =>
    simp only [place, hforeign] at h
    cases h
  | none =>
    cases hroot : table.sourcePath? origin with
    | none =>
      simp only [place, hforeign, hpattern, hroot] at h
      cases h
    | some root =>
      simp only [place, hforeign, hpattern, hroot, Traced.result_bind, Except.bind_eq_ok_iff] at h
      obtain ⟨found, hfound, ⟨placed', taken''⟩, hmatches, hrest⟩ := h
      have hsame : (placed', taken'') = (placed, taken') := by
        split at hrest <;> cases hrest <;> rfl
      obtain ⟨⟩ := hsame
      obtain ⟨targets, htargets, hplaced, htaken'⟩ := placeMatches_eq_ok hkind hmatches htaken
      exact ⟨found, targets, ⟨⟨root, hroot, Tree.isMatches_of_search (search_eq_ok hfound)⟩, htargets⟩, hplaced, htaken'⟩

theorem place_eq_ok_of_own (hpattern : table.pattern? = none)
    (h : (table.place t origin claimed taken).result = .ok (placed, taken')) :
    taken' = taken ∧ ∃ resource, table.resource t origin (table.sourcePath? origin) = .ok resource ∧
      placed = [(table.path, resource)] := by
  cases hforeign : table.foreignField? with
  | some field =>
    simp only [place, hforeign] at h
    cases h
  | none =>
    simp only [place, hforeign, hpattern] at h
    split at h
    · cases h
    · simp only [Traced.result_bind, Traced.result_ofExcept, Traced.result_pure, Except.bind_eq_ok_iff] at h
      obtain ⟨resource, hresource, ⟨⟩⟩ := h
      exact ⟨rfl, resource, hresource, rfl⟩

end ResourceTable

/-! ## What a document says -/

/-- What the tables of a document say, one after the other. A match is kept if its target is not claimed, nor that of an
    earlier match. -/
inductive IsConverted (t : Tree) (origin : Origin) (claimed : List TargetPath) :
    List TargetPath → List ResourceTable → List Saying → Prop where
  | nil {earlier : List TargetPath} : IsConverted t origin claimed earlier [] []
  | own {earlier : List TargetPath} {table : ResourceTable} {rest : List ResourceTable} {said more : List Saying}
      (hpattern : table.pattern? = none) (hsaid : table.IsOwn t origin said)
      (hmore : IsConverted t origin claimed earlier rest more) :
      IsConverted t origin claimed earlier (table :: rest) (said ++ more)
  | expanded {earlier targets : List TargetPath} {table : ResourceTable} {rest : List ResourceTable} {pattern : String}
      {found : List (String × HostPath)} {groups : List (List Saying)} {more : List Saying}
      (hpattern : table.pattern? = some pattern) (hfound : table.IsSearched t origin pattern found targets)
      (hgroups : List.Forall₂ (table.IsMatch t) (unclaimed claimed earlier (found.zip targets)) groups)
      (hmore : IsConverted t origin claimed (earlier ++ targets) rest more) :
      IsConverted t origin claimed earlier (table :: rest) (groups.flatten ++ more)

namespace Manifest

variable {t : Tree} {origin : Origin} {claimed earlier taken taken' : List TargetPath} {table : ResourceTable}
  {m m' : Manifest}

theorem isOwn_of_isGroup {resource : Resource} {said : List Saying}
    (hresource : table.resource t origin (table.sourcePath? origin) = .ok resource)
    (h : IsGroup table (table.path, resource) said) : table.IsOwn t origin said := by
  obtain ⟨path, required, hparse, hspells, hsaid⟩ := h
  exact ⟨path, resource, required, hparse, hspells, hresource,
    fun hkind => ResourceTable.resource_eq_ok hkind hresource, hsaid⟩

theorem isMatch_of_isGroup {found : (String × HostPath) × TargetPath} {placement : ResourceTable.Placement}
    {said : List Saying} (hplaced : table.IsPlaced t found placement) (h : IsGroup table placement said) :
    table.IsMatch t found said := by
  obtain ⟨htarget, host, spec, hhost, hprevails, hspec⟩ := hplaced
  obtain ⟨target, required, hparse, hspells, rfl⟩ := h
  cases htarget.symm.trans hparse
  exact ⟨host, spec, required, hhost, hprevails, hspells, by rw [hspec]⟩

theorem pushTable_eq_ok (h : (m.pushTable t origin claimed taken table).result = .ok (m', taken')) :
    ∃ placed groups, (table.place t origin claimed taken).result = .ok (placed, taken') ∧
      List.Forall₂ (IsGroup table) placed groups ∧ m.Extends m' groups.flatten := by
  simp only [pushTable, Traced.result_bind, Traced.result_ofExcept, Traced.result_pure, Except.bind_eq_ok_iff] at h
  obtain ⟨⟨placed, taken''⟩, hplaced, next, hnext, ⟨⟩⟩ := h
  obtain ⟨groups, hgroups, hextends⟩ := foldlM_placements_extends (Except.mapError_eq_ok_iff.1 hnext)
  exact ⟨placed, groups, hplaced, hgroups, hextends⟩

/-- What tables say is put behind what the manifest has. -/
theorem pushTables_isConverted {index : Nat} {tables : List ResourceTable}
    (h : (pushTables t origin claimed index tables m taken).result = .ok m')
    (htaken : ResourceTable.IsTaken claimed earlier taken) :
    ∃ said, IsConverted t origin claimed earlier tables said ∧ m.Extends m' said := by
  induction tables generalizing index m earlier taken with
  | nil =>
    cases h
    exact ⟨[], .nil, .refl _⟩
  | cons table rest ih =>
    simp only [pushTables, Traced.result_bind, Traced.result_mapError, Except.bind_eq_ok_iff,
      Except.mapError_eq_ok_iff] at h
    obtain ⟨⟨next, taken'⟩, hnext, hrest⟩ := h
    obtain ⟨placed, groups, hplace, hgroups, hextends⟩ := pushTable_eq_ok hnext
    cases hpattern : table.pattern? with
    | none =>
      -- One placement makes one group, and nothing more is taken.
      obtain ⟨rfl, resource, hresource, rfl⟩ := ResourceTable.place_eq_ok_of_own hpattern hplace
      obtain ⟨said, -, hsaid, ⟨⟩, rfl⟩ := List.forall₂_cons_left_iff.1 hgroups
      obtain ⟨more, hmore, hextends'⟩ := ih hrest htaken
      refine ⟨said ++ more, .own hpattern (isOwn_of_isGroup hresource hsaid) hmore, ?_⟩
      rw [List.flatten_singleton] at hextends
      exact hextends.trans hextends'
    | some pattern =>
      obtain ⟨found, targets, hfound, hplaced, htaken'⟩ :=
        ResourceTable.place_eq_ok_of_pattern hpattern hplace htaken
      obtain ⟨more, hmore, hextends'⟩ := ih hrest htaken'
      have hmatches := forall₂_comp hplaced hgroups fun _ _ _ => isMatch_of_isGroup
      exact ⟨groups.flatten ++ more, .expanded hpattern hfound hmatches hmore, hextends.trans hextends'⟩

/-- A path is claimed by the tables that name it, unless they adjust what is there only. -/
theorem mem_claimedPaths {tables : List ResourceTable} {path : TargetPath} : path ∈ claimedPaths tables ↔
    ∃ table ∈ tables, table.pattern? = none ∧ table.kind ≠ .permissions ∧ table.kind ≠ .xattr ∧
      TargetPath.parse table.path = .ok path := by
  rw [claimedPaths, List.mem_filterMap]
  refine exists_congr fun table => and_congr_right fun _ => ?_
  have hexplicit : table.isExplicit = true ↔
      table.pattern? = none ∧ table.kind ≠ .permissions ∧ table.kind ≠ .xattr := by
    simp [ResourceTable.isExplicit, and_assoc]
  by_cases h : table.isExplicit
  · obtain ⟨hpattern, hpermissions, hxattr⟩ := hexplicit.1 h
    simp [h, hpattern, hpermissions, hxattr, Except.toOption_eq_some_iff]
  · rw [if_neg h]
    exact ⟨nofun, fun ⟨hpattern, hpermissions, hxattr, _⟩ => absurd (hexplicit.2 ⟨hpattern, hpermissions, hxattr⟩) h⟩

/-- The manifest of a document has the name that the document gives, or else the one it goes by. Its declarations are
    what the tables say, table by table, and are numbered from the first on. A match is kept unless its target is
    named by a table, be it a later one, that declares a whole entry or its removal there. -/
theorem ofTable_isConverted {id : String} {document : ManifestTable}
    (h : (ofTable t origin id document).result = .ok m) :
    m.id = document.id.getD id ∧
      m.declarations.map (·.provenance) = (List.range m.declarations.length).map (⟨document.id.getD id, ·⟩) ∧
      ∃ claimed, (∀ path, path ∈ claimed ↔ ∃ table ∈ document.resources, table.pattern? = none ∧
          table.kind ≠ .permissions ∧ table.kind ≠ .xattr ∧ TargetPath.parse table.path = .ok path) ∧
        IsConverted t origin claimed [] document.resources (m.declarations.map (·.saying)) := by
  simp only [ofTable, Traced.result_bind, Traced.result_say, Traced.result_pure, Except.bind_eq_ok_iff] at h
  obtain ⟨m', hpushed, -, -, ⟨⟩⟩ := h
  obtain ⟨said, hconverted, hextends⟩ := pushTables_isConverted hpushed fun _ _ => Iff.rfl
  have hnumbered : m.IsNumbered := hextends.numbered rfl
  have hid : m.id = document.id.getD id := hextends.id
  have hsaid : m.declarations.map (·.saying) = said := hextends.said
  refine ⟨hid, ?_, claimedPaths document.resources, fun path => mem_claimedPaths, hsaid.symm ▸ hconverted⟩
  rw [← hid]
  exact hnumbered

/-- A file and two pipes. -/
def shelf : Tree :=
  (Tree.insert ⟨∅, []⟩ [utf8 "usr"] ⟨.directory, 0o755, 0⟩).insert [utf8 "usr", utf8 "a"] ⟨.file (utf8 "old"), 0o644, 5⟩
    |>.insert [utf8 "usr", utf8 "b"] ⟨.fifo, 0o600, 7⟩ |>.insert [utf8 "usr", utf8 "c"] ⟨.fifo, 0o600, 8⟩

/-- Everything that is on the shelf, with an attribute; a file in the place of the first pipe, by another spelling; the
    file on the shelf again; and a mode for it. -/
def shelving : ManifestTable :=
  ⟨none,
    [⟨{ source := some "usr", glob := some "*", mtime := some 9, requires := ["/r", "/r/"],
        xattrs := .ofList [("n", "v")] }, .fromHost, "/s/"⟩,
      ⟨{ content := some "new" }, .file, "/s/./b"⟩,
      ⟨{ source := some "usr", glob := some "a" }, .fromHost, "/s"⟩,
      ⟨{ mode := some (.octal "640") }, .permissions, "/s/a"⟩]⟩

/-- The first pipe is left out for the file that comes later, and the file on the shelf is not taken twice. The mode
    declared for it leaves it where it is. -/
theorem shelving_isConverted :
    ∃ m, (ofTable shelf ⟨"shelf.toml", .ofText "/"⟩ "shelf" shelving).result = .ok m ∧
      (m.declarations.map fun d => (d.path.text, d.kind, d.requires.map (·.text))) =
        [("/s/a", .regularFile, ["/r"]), ("/s/a", .extendedAttribute, []), ("/s/c", .fifo, ["/r"]),
          ("/s/c", .extendedAttribute, []), ("/s/b", .regularFile, []), ("/s/a", .permissionSet, [])] ∧
      m.declarations.map (·.provenance) = (List.range 6).map (⟨"shelf", ·⟩) ∧
      ∃ claimed, ⟨["s", "b"], by decide⟩ ∈ claimed ∧ ⟨["s", "a"], by decide⟩ ∉ claimed ∧
        IsConverted shelf ⟨"shelf.toml", .ofText "/"⟩ claimed [] shelving.resources (m.declarations.map (·.saying)) := by
  have hrun : ((ofTable shelf ⟨"shelf.toml", .ofText "/"⟩ "shelf" shelving).result.toOption.map fun m =>
        m.declarations.map fun d => (d.path.text, d.kind, d.requires.map (·.text))) =
      some [("/s/a", .regularFile, ["/r"]), ("/s/a", .extendedAttribute, []), ("/s/c", .fifo, ["/r"]),
        ("/s/c", .extendedAttribute, []), ("/s/b", .regularFile, []), ("/s/a", .permissionSet, [])] := by cbv
  obtain ⟨m, hm, hdeclared⟩ := Option.map_eq_some_iff.1 hrun
  have hok := Except.toOption_eq_some_iff.1 hm
  obtain ⟨-, hprovenance, claimed, hclaimed, hconverted⟩ := ofTable_isConverted hok
  have hlength : m.declarations.length = 6 := by simpa using congrArg List.length hdeclared
  refine ⟨m, hok, hdeclared, hlength ▸ hprovenance, claimed, (hclaimed _).2 ?_, fun hmem => ?_, hconverted⟩
  · exact ⟨_, .tail _ (.head _), rfl, by decide, by decide, by decide⟩
  · -- The only table that claims a path is the one of the other file.
    have hexplicit : ∀ table ∈ shelving.resources, table.pattern? = none → table.kind ≠ .permissions →
        table.path = "/s/./b" := by decide
    obtain ⟨table, htable, hpattern, hpermissions, -, hparse⟩ := (hclaimed _).1 hmem
    rw [hexplicit table htable hpattern hpermissions] at hparse
    exact absurd hparse (by decide)

end Manifest

end Provision
