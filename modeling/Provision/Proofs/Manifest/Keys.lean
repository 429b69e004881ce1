import Provision.Manifest.Conversion
import Provision.Proofs.Note

/-! # Keys of a document

A key that the schema does not have is a mistake, and it is reported wherever a table is read field by field: in the document
and in each table of it that declares a resource. The tables of owners and groups are read otherwise: their name and their
id are looked up, and whatever else they hold is left alone.

* `resourceTables`, `principalTables` — the tables of a document that declare resources, and owners and groups in them;
  `HasKnownKeys` — whether the schema has the keys of all but the latter.
* `fromEntries_eq_ok` — a table that is read field by field has no other keys; `fromEntries_map` — what else may change.
* `plain` — a document whose owners and groups hold nothing but names and ids; `decode_plain` — it says the same.
* `Manifest.parse_hasKnownKeys` — the statement.
-/

namespace Provision

open Schema Toml

/-! ## Known keys -/

def documentKeys : List String := ["id", "resource"]

def resourceKeys : List String :=
  ["kind", "path", "requires", "mode", "owner", "group", "mtime", "atime", "xattrs", "content", "content_base64", "source",
    "glob", "target", "class", "major", "minor", "name", "value", "value_base64"]

def principalKeys : List String := ["name", "id"]

/-- The entries of an item that is a table. -/
def tableEntries? : Item → Option Entries
  | .table _ entries => some entries
  | _ => none

/-- The tables of a document that declare resources, each by a header of its own or all of them in an array. -/
def resourceTables (entries : Entries) : List Entries :=
  entries.flatMap fun e =>
    if e.1.text = "resource" then ((items? e.2).getD []).filterMap tableEntries? else []

/-- The owners and groups in resource tables that are tables themselves. -/
def principalTables (entries : Entries) : List Entries :=
  (resourceTables entries).flatMap fun table =>
    table.filterMap fun e => if e.1.text = "owner" ∨ e.1.text = "group" then tableEntries? e.2 else none

/-- Whether the schema has the keys of a document and of its resource tables. -/
structure HasKnownKeys (entries : Entries) : Prop where
  document : ∀ e ∈ entries, e.1.text ∈ documentKeys
  resources : ∀ table ∈ resourceTables entries, ∀ e ∈ table, e.1.text ∈ resourceKeys

theorem tableEntries?_eq_some {item : Item} {entries : Entries} (h : tableEntries? item = some entries) :
    ∃ form, item = .table form entries := by
  cases item with
  | table form entries =>
    cases h
    exact ⟨form, rfl⟩
  | _ => cases h

theorem mem_resourceTables {entries table : Entries} : table ∈ resourceTables entries ↔
    ∃ e ∈ entries, e.1.text = "resource" ∧ ∃ item ∈ (items? e.2).getD [], tableEntries? item = some table := by
  simp only [resourceTables, List.mem_flatMap]
  refine exists_congr fun e => and_congr_right fun _ => ?_
  split <;> simp_all

/-! ## Reading field by field -/

theorem located_eq_ok_iff {α : Type} {start : Option Nat} {result : Except SchemaError α} {a : α} :
    located start result = .ok a ↔ result = .ok a :=
  Except.mapError_eq_ok_iff

section Fields

variable {σ : Type} {fields : List (KeyField σ)}

/-- One entry, given what is known from those before it. -/
def readEntry (fields : List (KeyField σ)) (known : σ) (e : Key × Item) : Except SchemaError σ :=
  match fields.find? (·.name = e.1.text) with
  | some field => valueOf (field.add known) e.1 e.2
  | none => .error ⟨.unknownField e.1.text (fields.map (·.name)), some e.1.start⟩

theorem fromEntries_cons (known : σ) (e : Key × Item) (rest : Entries) :
    fromEntries fields known (e :: rest) = (readEntry fields known e).bind fun next => fromEntries fields next rest := by
  obtain ⟨key, value⟩ := e
  rw [fromEntries, List.foldlM_cons]
  rfl

/-- A table that is read has only keys of fields, each with an item that its field takes. -/
theorem fromEntries_eq_ok {known result : σ} {entries : Entries} (h : fromEntries fields known entries = .ok result) :
    ∀ e ∈ entries, ∃ field ∈ fields, field.name = e.1.text ∧ ∃ before after, field.add before e.2 = .ok after := by
  -- What is known grows from entry to entry, so the induction is for whatever is known at the start.
  induction entries generalizing known with
  | nil => exact fun e he => absurd he List.not_mem_nil
  | cons first rest ih =>
    rw [fromEntries_cons] at h
    obtain ⟨next, hnext, hrest⟩ := Except.bind_eq_ok_iff.1 h
    intro e he
    rcases List.mem_cons.1 he with rfl | he
    · rw [readEntry] at hnext
      split at hnext
      · rename_i field hfield
        exact ⟨field, List.mem_of_find?_eq_some hfield, by simpa using List.find?_some hfield, known, next,
          located_eq_ok_iff.1 hnext⟩
      · cases hnext
    · exact ih hrest e he

theorem mem_names_of_fromEntries {known result : σ} {entries : Entries} (h : fromEntries fields known entries = .ok result) :
    ∀ e ∈ entries, e.1.text ∈ fields.map (·.name) := by
  intro e he
  obtain ⟨field, hfield, hname, -⟩ := fromEntries_eq_ok h e he
  exact List.mem_map.2 ⟨field, hfield, hname⟩

/-- Items that no field tells apart from others may be replaced by them. -/
theorem fromEntries_map (change : Key → Item → Item)
    (h : ∀ field ∈ fields, ∀ key item, field.name = key.text → ∀ known,
      valueOf (field.add known) key (change key item) = valueOf (field.add known) key item)
    (known : σ) (entries : Entries) :
    fromEntries fields known (entries.map fun e => (e.1, change e.1 e.2)) = fromEntries fields known entries := by
  induction entries generalizing known with
  | nil => rfl
  | cons e rest ih =>
    have hread : readEntry fields known (e.1, change e.1 e.2) = readEntry fields known e := by
      simp only [readEntry]
      cases hfield : fields.find? (·.name = e.1.text) with
      | none => rfl
      | some field => exact h field (List.mem_of_find?_eq_some hfield) e.1 e.2 (by simpa using List.find?_some hfield) known
    rw [List.map_cons, fromEntries_cons, fromEntries_cons, hread]
    exact congrArg _ (funext ih)

end Fields

/-! ## Tables and documents -/

theorem list_eq_ok {α : Type} {decode : Decoder α} {item : Item} {as : List α} (h : list decode item = .ok as) :
    ∃ items, items? item = some items ∧ List.Forall₂ (fun item a => decode item = .ok a) items as := by
  unfold list at h
  split at h
  · rename_i items hitems
    exact ⟨items, hitems, Except.mapM_eq_ok_iff.1 (located_eq_ok_iff.1 h)⟩
  · cases h

theorem ResourceTable.mem_resourceKeys {form : TableForm} {entries : Entries} {table : ResourceTable}
    (h : decode (.table form entries) = .ok table) : ∀ e ∈ entries, e.1.text ∈ resourceKeys := by
  obtain ⟨known, hrecord, -⟩ := Except.bind_eq_ok_iff.1 h
  exact mem_names_of_fromEntries (located_eq_ok_iff.1 hrecord)

theorem ManifestTable.hasKnownKeys {form : TableForm} {entries : Entries} {document : ManifestTable}
    (h : decode (.table form entries) = .ok document) : HasKnownKeys entries := by
  have hfields := located_eq_ok_iff.1 h
  refine ⟨mem_names_of_fromEntries hfields, fun table htable => ?_⟩
  obtain ⟨e, he, hresource, item, hitem, hentries⟩ := mem_resourceTables.1 htable
  obtain ⟨field, hfield, hname, before, after, hadd⟩ := fromEntries_eq_ok hfields e he
  -- The field of that name is the one that decodes a list of resource tables.
  obtain rfl : field = fields[1] := by
    rw [hresource] at hname
    rcases List.mem_pair.1 hfield with rfl | rfl
    · exact absurd hname (by decide)
    · rfl
  obtain ⟨tables, htables, -⟩ := Except.bind_eq_ok_iff.1 hadd
  obtain ⟨items, hitems, hdecoded⟩ := list_eq_ok htables
  rw [hitems, Option.getD_some] at hitem
  obtain ⟨resource, -, hresource⟩ := exists_of_mem_forall₂ hdecoded hitem
  obtain ⟨form, rfl⟩ := tableEntries?_eq_some hentries
  exact ResourceTable.mem_resourceKeys hresource

/-! ## Owners and groups -/

/-- An owner or group with nothing but a name and an id. -/
def plainPrincipal : Item → Item
  | .table form entries => .table form (List.filter (fun e => e.1.text ∈ principalKeys) entries)
  | item => item

/-- The item of a resource table under a key, plain if it is an owner or a group. -/
def plainEntry (key : Key) (item : Item) : Item :=
  if key.text = "owner" ∨ key.text = "group" then plainPrincipal item else item

def plainResource : Item → Item
  | .table form entries => .table form (entries.map fun e => (e.1, plainEntry e.1 e.2))
  | item => item

def plainResources : Item → Item
  | .array start items => .array start (items.map plainResource)
  | .tables elements => .tables (elements.map plainResource)
  | item => item

/-- A document in whose resource tables each owner and group that is a table has nothing but a name and an id. -/
def plain (entries : Entries) : Entries :=
  entries.map fun e => (e.1, if e.1.text = "resource" then plainResources e.2 else e.2)

@[simp]
theorem start?_plainPrincipal (item : Item) : (plainPrincipal item).start? = item.start? := by
  cases item <;> rfl

@[simp]
theorem start?_plainResource (item : Item) : (plainResource item).start? = item.start? := by
  cases item <;> rfl

@[simp]
theorem start?_plainResources (item : Item) : (plainResources item).start? = item.start? := by
  cases item with
  | tables elements =>
    cases elements with
    | nil => rfl
    | cons first rest => cases first <;> rfl
  | _ => rfl

theorem item?_filter_principalKeys {key : String} (hkey : key ∈ principalKeys) (entries : Entries) :
    Entries.item? (List.filter (fun e => e.1.text ∈ principalKeys) entries) key = entries.item? key := by
  rw [Entries.item?, Entries.item?, List.find?_filter]
  congr 2
  funext e
  by_cases h : e.1.text = key <;> simp [h, hkey]

/-- Owners and groups are read by looking up what they are asked for. -/
theorem principal_plain (item : Item) : principal (plainPrincipal item) = principal item := by
  have hfound : principal? (plainPrincipal item) = principal? item := by
    cases item with
    | table form entries =>
      have hname := item?_filter_principalKeys (show "name" ∈ principalKeys by decide) entries
      have hid := item?_filter_principalKeys (show "id" ∈ principalKeys by decide) entries
      simp only [plainPrincipal, principal?, entries?, hname, hid]
    | _ => rfl
  rw [principal, principal, hfound, start?_plainPrincipal]

/-- The fields of owners and groups take principals. -/
theorem exists_add_eq_map {field : KeyField PartialTable} (hfield : field ∈ ResourceTable.fields)
    (hname : field.name = "owner" ∨ field.name = "group") :
    ∃ set : PartialTable → Principal → PartialTable, ∀ known item, field.add known item = (principal item).map (set known) := by
  have hprincipals : ResourceTable.fields.filter (fun field => field.name = "owner" ∨ field.name = "group") =
      [holds "owner" principal fun t v => { t with owner := some v },
        holds "group" principal fun t v => { t with group := some v }] := rfl
  have hmem : field ∈ ResourceTable.fields.filter (fun field => field.name = "owner" ∨ field.name = "group") :=
    List.mem_filter.2 ⟨hfield, decide_eq_true hname⟩
  rw [hprincipals] at hmem
  rcases List.mem_pair.1 hmem with rfl | rfl
  · exact ⟨_, fun _ _ => rfl⟩
  · exact ⟨_, fun _ _ => rfl⟩

theorem valueOf_plainEntry {field : KeyField PartialTable} (hfield : field ∈ ResourceTable.fields) {key : Key}
    (hname : field.name = key.text) (known : PartialTable) (item : Item) :
    valueOf (field.add known) key (plainEntry key item) = valueOf (field.add known) key item := by
  by_cases hkey : key.text = "owner" ∨ key.text = "group"
  · obtain ⟨set, hset⟩ := exists_add_eq_map hfield (hname ▸ hkey)
    simp only [plainEntry, if_pos hkey, valueOf, hset, start?_plainPrincipal, principal_plain]
  · rw [plainEntry, if_neg hkey]

theorem decode_plainResource (item : Item) : ResourceTable.decode (plainResource item) = ResourceTable.decode item := by
  cases item with
  | table form entries =>
    have hread := fromEntries_map plainEntry
      (fun _ hfield _ item hname known => valueOf_plainEntry hfield hname known item) {} entries
    simp only [plainResource, ResourceTable.decode, record, entries?, hread]
    rfl
  | _ => rfl

theorem list_plainResources (item : Item) :
    list ResourceTable.decode (plainResources item) = list ResourceTable.decode item := by
  have hitems (items : List Item) :
      (items.map plainResource).mapM ResourceTable.decode = items.mapM ResourceTable.decode := by
    rw [List.mapM_map, show ResourceTable.decode ∘ plainResource = _ from funext decode_plainResource]
  have hstart := start?_plainResources item
  cases item with
  | array start items => simp only [plainResources, list, items?, hitems, Item.start?]
  | tables elements =>
    rw [plainResources] at hstart ⊢
    simp only [list, items?, hitems, hstart]
  | _ => rfl

theorem items?_plainResources (item : Item) :
    items? (plainResources item) = (items? item).map (List.map plainResource) := by
  cases item <;> rfl

theorem mem_principalKeys_of_plainPrincipal {item : Item} {owner : Entries}
    (h : tableEntries? (plainPrincipal item) = some owner) : ∀ e ∈ owner, e.1.text ∈ principalKeys := by
  cases item with
  | table form entries =>
    obtain rfl := Option.some.inj h
    exact fun e he => by simpa using (List.mem_filter.1 he).2
  | _ => cases h

theorem mem_principalKeys_of_plain {entries owner : Entries} (h : owner ∈ principalTables (plain entries)) :
    ∀ e ∈ owner, e.1.text ∈ principalKeys := by
  obtain ⟨table, htable, howner⟩ := List.mem_flatMap.1 h
  obtain ⟨e, he, hresource, item, hitem, hentries⟩ := mem_resourceTables.1 htable
  obtain ⟨⟨key, value⟩, -, rfl⟩ := List.mem_map.1 he
  simp only [if_pos hresource, items?_plainResources] at hitem
  obtain ⟨original, rfl⟩ : ∃ original, plainResource original = item := by
    cases hitems : items? value with
    | none => simp [hitems] at hitem
    | some items =>
      simp only [hitems, Option.map_some, Option.getD_some] at hitem
      obtain ⟨original, -, horiginal⟩ := List.mem_map.1 hitem
      exact ⟨original, horiginal⟩
  cases original with
  | table form fields =>
    obtain rfl := Option.some.inj hentries
    obtain ⟨e, he, hprincipal⟩ := List.mem_filterMap.1 howner
    obtain ⟨⟨key, value⟩, -, rfl⟩ := List.mem_map.1 he
    split at hprincipal
    · rename_i hkey
      simp only [plainEntry, if_pos hkey] at hprincipal
      exact mem_principalKeys_of_plainPrincipal hprincipal
    · cases hprincipal
  | _ => cases hentries

/-- What else stands in the tables of owners and groups makes no difference. -/
theorem ManifestTable.decode_plain (entries : Entries) :
    decode (.table .above (plain entries)) = decode (.table .above entries) := by
  have hread : fromEntries fields ⟨none, []⟩ (plain entries) = fromEntries fields ⟨none, []⟩ entries := by
    refine fromEntries_map (fun key item => if key.text = "resource" then plainResources item else item)
      (fun field hfield key item hname known => ?_) _ entries
    split
    · rename_i hresource
      rw [hresource] at hname
      rcases List.mem_pair.1 hfield with rfl | rfl
      · exact absurd hname (by decide)
      · simp only [valueOf, list_plainResources, start?_plainResources]
    · rfl
  simp only [decode, record, entries?, hread]
  rfl

namespace Manifest

/-- A document that is accepted has only keys of the schema, in itself and in its resource tables; another key in one of
    them is a mistake in the shape of the document. In the tables of owners and groups all other keys are passed over: the
    document says the same without them. -/
theorem parse_hasKnownKeys {t : Tree} {source id : String} {directory : HostPath} :
    (∀ m, (parse t source id directory).result = .ok m →
      ∃ entries, Toml.parse? source = some entries ∧ HasKnownKeys entries) ∧
    ∀ entries, Toml.parse? source = some entries →
      (¬HasKnownKeys entries → ∃ e, (parse t source id directory).result = .error (.document id (.shape e))) ∧
      ManifestTable.decode (.table .above (plain entries)) = ManifestTable.decode (.table .above entries) ∧
      ∀ owner ∈ principalTables (plain entries), ∀ e ∈ owner, e.1.text ∈ principalKeys := by
  rw [parse, Traced.result_bind, Traced.result_ofExcept, decodeDocument]
  constructor
  · intro m hm
    obtain ⟨document, hdocument, -⟩ := Except.bind_eq_ok_iff.1 hm
    rw [Except.mapError_eq_ok_iff] at hdocument
    split at hdocument
    · cases hdocument
    · exact ⟨_, ‹_›, ManifestTable.hasKnownKeys (Except.mapError_eq_ok_iff.1 hdocument)⟩
  · intro entries hparse
    refine ⟨fun hunknown => ?_, ManifestTable.decode_plain entries, fun _ => mem_principalKeys_of_plain⟩
    rw [hparse]
    cases hdecode : ManifestTable.decode (.table .above entries) with
    | error e => exact ⟨e, by simp only [hdecode]; rfl⟩
    | ok document => exact absurd (ManifestTable.hasKnownKeys hdecode) hunknown

/-- A directory whose mode stands under the given key. -/
def quayed (key : String) : String := "[[resource]]\nkind='directory'\npath='/quay'\n" ++ key ++ "='0750'\n"

/-- The keys of a document and of its resource tables are known, or there is one that is not. -/
theorem quayed_hasKnownKeys :
    (∃ m entries, (parse ⟨∅, []⟩ (quayed "mode") "site" (.ofText "/")).result = .ok m ∧
      Toml.parse? (quayed "mode") = some entries ∧ HasKnownKeys entries) ∧
    ∃ entries e, Toml.parse? (quayed "mod") = some entries ∧ ¬HasKnownKeys entries ∧
      (parse ⟨∅, []⟩ (quayed "mod") "site" (.ofText "/")).result = .error (.document "site" (.shape e)) := by
  constructor
  · have haccepted : (parse ⟨∅, []⟩ (quayed "mode") "site" (.ofText "/")).result.toOption.isSome := by decide +kernel
    obtain ⟨m, hm⟩ := Option.isSome_iff_exists.1 haccepted
    have hresult := Except.toOption_eq_some_iff.1 hm
    obtain ⟨entries, hparse, hknown⟩ := parse_hasKnownKeys.1 m hresult
    exact ⟨m, entries, hresult, hparse, hknown⟩
  · have hkeys : (Toml.parse? (quayed "mod")).map (fun entries => (resourceTables entries).map (·.map (·.1.text))) =
        some [["kind", "path", "mod"]] := by decide +kernel
    obtain ⟨entries, hparse, htables⟩ := Option.map_eq_some_iff.1 hkeys
    have hunknown : ¬HasKnownKeys entries := by
      intro hknown
      obtain ⟨table, htable, hkeys⟩ : ∃ table ∈ resourceTables entries, table.map (·.1.text) = ["kind", "path", "mod"] :=
        List.mem_map.1 (htables ▸ List.mem_singleton_self _)
      obtain ⟨e, he, hkey⟩ : ∃ e ∈ table, e.1.text = "mod" := List.mem_map.1 (hkeys ▸ by decide)
      exact absurd (hkey ▸ hknown.resources table htable e he) (by decide)
    obtain ⟨e, he⟩ := (parse_hasKnownKeys.2 entries hparse).1 hunknown
    exact ⟨entries, e, hparse, hunknown, he⟩

/-- A directory whose owner has a name and something else. -/
def misowned : String := "[[resource]]\nkind='directory'\npath='/quay'\nowner=\x7bname='root',uid=7\x7d\n"

/-- The document is accepted, and its owner has a name and nothing else. -/
theorem misowned_isAccepted : ∃ m entries, (parse ⟨∅, []⟩ misowned "site" (.ofText "/")).result = .ok m ∧
    m.declarations.map (·.resource) = [.entry ⟨.directory, ⟨none, some ⟨some "root", none⟩, none⟩, none, none⟩] ∧
    Toml.parse? misowned = some entries ∧ ∃ owner ∈ principalTables entries, ∃ e ∈ owner, e.1.text ∉ principalKeys := by
  have hkeys : (Toml.parse? misowned).map (fun entries => (principalTables entries).map (·.map (·.1.text))) =
      some [["name", "uid"]] := by decide +kernel
  have hrun : ((parse ⟨∅, []⟩ misowned "site" (.ofText "/")).result.toOption.map fun m =>
      m.declarations.map (·.resource)) =
      some [.entry ⟨.directory, ⟨none, some ⟨some "root", none⟩, none⟩, none, none⟩] := by decide +kernel
  obtain ⟨entries, hparse, htables⟩ := Option.map_eq_some_iff.1 hkeys
  obtain ⟨m, hm, howner⟩ := Option.map_eq_some_iff.1 hrun
  obtain ⟨owner, howned, hkeys⟩ : ∃ owner ∈ principalTables entries, owner.map (·.1.text) = ["name", "uid"] :=
    List.mem_map.1 (htables ▸ List.mem_singleton_self _)
  obtain ⟨e, he, hkey⟩ : ∃ e ∈ owner, e.1.text = "uid" := List.mem_map.1 (hkeys ▸ by decide)
  exact ⟨m, entries, Except.toOption_eq_some_iff.1 hm, howner, hparse, owner, howned, e, he, hkey ▸ by decide⟩

end Manifest

end Provision
