import Provision.Proofs.Manifest.Conversion
import Provision.Proofs.Octets
import Provision.Proofs.Spelling

/-! # Spelled paths of a document

What a table declares, it declares at a path, so its path and its requirements are read on that occasion. A table with a
pattern declares something for each match that is kept; without one, nothing is said about how its paths are spelled.

* `IsSpelling.of_append` — what the target of a match says about the path of the table.
* `ResourceTable.IsChecked` — what is known of the texts in a table by what it declares.
* `Manifest.read_isChecked` — the statement, for documents given as texts and as files.
-/

namespace Provision

open Schema

/-! ## Texts -/

/-- What goes on from a text with a separator has the faults of the text, unless this is empty. -/
theorem IsSpelling.of_append {path way : String} (h : IsSpelling (path ++ "/" ++ way)) : path = "" ∨ IsSpelling path := by
  have hwhole : (path ++ "/" ++ way).toList = path.toList ++ '/' :: way.toList := by simp
  obtain ⟨hhead, hnul, hup⟩ := isSpelling_iff.1 h
  rw [TargetPath.rawSegments, hwhole] at hup
  have hsegments := TargetPath.names_append path.toList way.toList
  rw [TargetPath.names] at hsegments
  rw [hsegments, List.mem_append, not_or] at hup
  rw [hwhole] at hhead hnul
  by_cases hempty : path.toList = []
  · exact .inl (String.toList_eq_nil_iff.1 hempty)
  · refine .inr (isSpelling_iff.2 ⟨?_, fun hmem => hnul (List.mem_append_left _ hmem), hup.1⟩)
    rwa [List.head?_append_of_ne_nil _ hempty] at hhead

theorem Spells.isSpelling {texts : List String} {paths : List TargetPath} (h : Spells texts paths) :
    ∀ text ∈ texts, IsSpelling text := by
  intro text htext
  obtain ⟨path, -, hparse⟩ := exists_of_mem_forall₂ h htext
  exact ⟨path, hparse⟩

/-! ## Tables -/

/-- What is known of a table by what it declares. -/
structure ResourceTable.IsChecked (t : Tree) (origin : Origin) (table : ResourceTable) (said : List Saying) : Prop where
  /-- A table without a pattern declares something at its path, whatever the host has. -/
  own : table.pattern? = none → said ≠ [] ∧ IsSpelling table.path
  /-- The path of a table with a pattern is read for each match, be it kept or not. An empty one passes for the root. -/
  searched : ∀ pattern, table.pattern? = some pattern → ∃ found targets, table.IsSearched t origin pattern found targets ∧
    (found = [] → said = []) ∧ (found ≠ [] → table.path = "" ∨ IsSpelling table.path)
  /-- The requirements of a table that declares something are read. -/
  requires : said ≠ [] → ∀ raw ∈ table.requires, IsSpelling raw

variable {t : Tree} {origin : Origin} {claimed earlier : List TargetPath} {table : ResourceTable}

theorem ResourceTable.IsOwn.isChecked {said : List Saying} (hpattern : table.pattern? = none)
    (h : table.IsOwn t origin said) : table.IsChecked t origin said := by
  obtain ⟨path, resource, required, hparse, hspells, -, -, rfl⟩ := h
  refine ⟨fun _ => ⟨List.cons_ne_nil _ _, path, hparse⟩, fun pattern hsome => ?_, fun _ => hspells.isSpelling⟩
  rw [hpattern] at hsome
  cases hsome

theorem ResourceTable.IsSearched.isChecked {pattern : String} {found : List (String × HostPath)}
    {targets : List TargetPath} {groups : List (List Saying)} (hpattern : table.pattern? = some pattern)
    (h : table.IsSearched t origin pattern found targets)
    (hgroups : List.Forall₂ (table.IsMatch t) (unclaimed claimed earlier (found.zip targets)) groups) :
    table.IsChecked t origin groups.flatten := by
  refine ⟨fun hnone => ?_, fun pattern' hsome => ?_, fun hsaid => ?_⟩
  · rw [hpattern] at hnone
    cases hnone
  · rw [hpattern] at hsome
    cases hsome
    refine ⟨found, targets, h, ?_, fun hfound => ?_⟩
    · rintro rfl
      cases hgroups
      rfl
    · obtain ⟨m, rest, rfl⟩ := List.exists_cons_of_ne_nil hfound
      obtain ⟨target, -, hparse, -, -⟩ := List.forall₂_cons_left_iff.1 h.parse
      exact IsSpelling.of_append ⟨target, hparse⟩
  · -- Each group of declarations has the requirements of the table for its own.
    obtain ⟨saying, hsaying⟩ := List.exists_mem_of_ne_nil _ hsaid
    obtain ⟨group, hgroup, -⟩ := List.mem_flatten.1 hsaying
    obtain ⟨m, -, -, -, required, -, -, hspells, -⟩ := exists_of_mem_forall₂ hgroups.flip hgroup
    exact hspells.isSpelling

/-! ## Documents -/

theorem IsConverted.isChecked {tables : List ResourceTable} {said : List Saying}
    (h : IsConverted t origin claimed earlier tables said) :
    ∃ groups, said = groups.flatten ∧ List.Forall₂ (ResourceTable.IsChecked t origin) tables groups := by
  induction h with
  | nil => exact ⟨[], rfl, .nil⟩
  | own hpattern hsaid _ ih =>
    obtain ⟨groups, rfl, hgroups⟩ := ih
    exact ⟨_ :: groups, rfl, .cons (hsaid.isChecked hpattern) hgroups⟩
  | expanded hpattern hfound hmatches _ ih =>
    obtain ⟨groups, rfl, hgroups⟩ := ih
    exact ⟨_ :: groups, rfl, .cons (hfound.isChecked hpattern hmatches) hgroups⟩

namespace Manifest

/-- Whether a manifest is what the tables of a document declare one after the other, the texts in each of them read as
    far as that takes. -/
def IsChecked (t : Tree) (origin : Origin) (document : ManifestTable) (m : Manifest) : Prop :=
  ∃ groups, m.declarations.map (·.saying) = groups.flatten ∧
    List.Forall₂ (ResourceTable.IsChecked t origin) document.resources groups

variable {m : Manifest}

theorem isChecked_of_ofTable {id : String} {document : ManifestTable}
    (h : (ofTable t origin id document).result = .ok m) : m.IsChecked t origin document := by
  simp only [ofTable, Traced.result_bind, Traced.result_say, Traced.result_pure, Except.bind_eq_ok_iff] at h
  obtain ⟨m', hpushed, -, -, ⟨⟩⟩ := h
  obtain ⟨said, hconverted, hextends⟩ := pushTables_isConverted hpushed fun _ _ => Iff.rfl
  obtain ⟨groups, hsaid, hgroups⟩ := hconverted.isChecked
  exact ⟨groups, hextends.said.trans hsaid, hgroups⟩

/-- A table of a document that is accepted, as a text or as a file, has a path and requirements that spell target paths,
    unless it has a pattern. With a pattern its path does so if there is any match, or else is empty, and its requirements
    do if it declares anything. -/
theorem read_isChecked (t : Tree) :
    (∀ source id directory m, (parse t source id directory).result = .ok m →
      ∃ document, decodeDocument ManifestTable.decode source = .ok document ∧ m.IsChecked t ⟨id, directory⟩ document) ∧
    ∀ path m, (load t path).result = .ok m →
      ∃ source document, t.readText path = .ok source ∧ decodeDocument ManifestTable.decode source = .ok document ∧
        m.IsChecked t ⟨path.text, path.parent?.getD ⟨selfName⟩⟩ document := by
  constructor
  · intro source id directory m h
    simp only [parse, Traced.result_bind, Traced.result_ofExcept, Except.bind_eq_ok_iff, Except.mapError_eq_ok_iff] at h
    obtain ⟨document, hdocument, hm⟩ := h
    exact ⟨document, hdocument, isChecked_of_ofTable hm⟩
  · intro path m h
    simp only [load, Traced.result_bind, Traced.result_ofExcept, Except.bind_eq_ok_iff] at h
    obtain ⟨document, hread, hm⟩ := h
    rw [Tree.document] at hread
    obtain ⟨source, hsource, hdocument⟩ := Except.bind_eq_ok_iff.1 hread
    exact ⟨source, document, Except.mapError_eq_ok_iff.1 hsource, Except.mapError_eq_ok_iff.1 hdocument,
      isChecked_of_ofTable hm⟩

/-- A pipe in a directory, and a document beside the directory. -/
def mooring (content : Octets) : Tree :=
  (Tree.insert ⟨∅, []⟩ [utf8 "bay"] ⟨.directory, 0o755, 0⟩).insert [utf8 "bay", utf8 "x"] ⟨.fifo, 0o600, 7⟩
    |>.insert [utf8 "m"] ⟨.file content, 0o644, 0⟩

/-- A pipe at a path with a separator behind it, and all that is in the directory, by a table with an empty path. -/
def moored : String :=
  "[[resource]]\nkind='fifo'\npath='/q/'\nrequires=['/r']\n" ++
    "[[resource]]\nkind='from-host'\npath=''\nrequires=['/q']\nsource='bay'\nglob='*'\n"

theorem readText_mooring (text : String) : (mooring (utf8 text)).readText (.ofText "/m") = .ok text := by
  have hread (content : Octets) : (mooring content).read (.ofText "/m") = .ok content := by cbv
  simp only [Tree.readText, hread, bind, Except.bind, textOf?_utf8]
  rfl

/-- What the second table declares is beneath the root, and its requirement was read. -/
theorem moored_isChecked : ∃ m document, (load (mooring (utf8 moored)) (.ofText "/m")).result = .ok m ∧
    (m.declarations.map fun d => (d.path.text, d.requires.map (·.text))) = [("/q", ["/r"]), ("/x", ["/q"])] ∧
    m.IsChecked (mooring (utf8 moored)) ⟨(HostPath.ofText "/m").text, .ofText "/"⟩ document := by
  have hrun : ((load (mooring (utf8 moored)) (.ofText "/m")).result.toOption.map fun m =>
      m.declarations.map fun d => (d.path.text, d.requires.map (·.text))) =
      some [("/q", ["/r"]), ("/x", ["/q"])] := by
    rw [load, Tree.document, readText_mooring]
    generalize utf8 moored = content
    cbv
  obtain ⟨m, hm, hdeclared⟩ := Option.map_eq_some_iff.1 hrun
  have hload := Except.toOption_eq_some_iff.1 hm
  obtain ⟨-, document, -, -, hchecked⟩ := (read_isChecked _).2 _ m hload
  have hparent : (HostPath.ofText "/m").parent? = some (.ofText "/") := by decide
  rw [hparent] at hchecked
  exact ⟨m, document, hload, hdeclared, hchecked⟩

/-- A directory with nothing in it. -/
def vacancy : Tree := Tree.insert ⟨∅, []⟩ [utf8 "pool"] ⟨.directory, 0o755, 0⟩

/-- All that is in the directory, at a path that is not absolute and after one that is empty. -/
def adrift : String := "[[resource]]\nkind='from-host'\npath='srv'\nrequires=['']\nsource='pool'\nglob='*'\n"

/-- The document is accepted as long as the directory is empty. -/
theorem adrift_isAccepted :
    (∃ m document, (parse vacancy adrift "site" (.ofText "/")).result = .ok m ∧
      decodeDocument ManifestTable.decode adrift = .ok document ∧
      ∃ table ∈ document.resources, ¬IsSpelling table.path ∧ ∃ raw ∈ table.requires, ¬IsSpelling raw) ∧
    (parse (vacancy.insert [utf8 "pool", utf8 "x"] ⟨.fifo, 0o600, 0⟩) adrift "site" (.ofText "/")).result.isOk = false := by
  have hrun : (parse vacancy adrift "site" (.ofText "/")).result.toOption.map (·.size) = some 0 := by cbv
  have hdocument : ((decodeDocument ManifestTable.decode adrift).toOption.map fun document =>
      document.resources.map fun table => (table.path, table.requires)) = some [("srv", [""])] := by decide +kernel
  refine ⟨?_, by cbv⟩
  obtain ⟨m, hm, -⟩ := Option.map_eq_some_iff.1 hrun
  obtain ⟨document, hdecoded, htables⟩ := Option.map_eq_some_iff.1 hdocument
  obtain ⟨table, htable, heq⟩ : ∃ table ∈ document.resources, (table.path, table.requires) = ("srv", [""]) :=
    List.mem_map.1 (htables ▸ List.mem_singleton_self _)
  obtain ⟨hpath, hrequires⟩ := Prod.mk.inj heq
  refine ⟨m, document, Except.toOption_eq_some_iff.1 hm, Except.toOption_eq_some_iff.1 hdecoded, table, htable, ?_, "", ?_,
    ?_⟩
  · rw [hpath, isSpelling_iff]
    decide
  · rw [hrequires]
    exact List.mem_singleton_self _
  · rw [isSpelling_iff]
    decide

end Manifest

end Provision
