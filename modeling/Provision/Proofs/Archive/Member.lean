import Provision.Proofs.Archive.Name
import Provision.Proofs.Archive.Record
import Provision.Proofs.Merge.Validity

/-! # Members are read back

Each value of a node stands in the header of its member where it has room there, and in a record
otherwise; a reader finds it in either case.

* `fieldRecords` — the records that stand for fields; `find?_fieldRecords` — each by its key.
* `isEncodable_ofNode`, `isEncodable_recordsHeader` — the headers have room for what is left to them.
* `Found.ofNode` — what a node comes to; `member?_ofNode` — what is read.
-/

namespace Provision

open ArchiveReader

namespace Member

/-! ## Fields or records -/

/-- The record of a number that has no room in its field. -/
def numberRecord? (n largest : Nat) : Option Octets :=
  if largest < n then some (utf8 (toString n)) else none

/-- The record of a text that has no room in its field. -/
def textRecord? (s : Octets) (width : Nat) : Option Octets :=
  if width < s.length then some s else none

theorem find?_fitted (key : String) (n largest : Nat) (k : String) :
    (SortedMap.ofList (fitted key n largest).2 : ExtendedRecords).find? k =
      if k = key then numberRecord? n largest else none := by
  unfold fitted numberRecord?
  split
  · rw [SortedMap.find?_ofList_singleton]
    simp only [Std.LawfulEqCmp.compare_eq_iff_eq]
  · simp

theorem find?_fittedText (key : String) (s : Octets) (width : Nat) (k : String) :
    (SortedMap.ofList (fittedText key s width).2 : ExtendedRecords).find? k =
      if k = key then textRecord? s width else none := by
  unfold fittedText textRecord?
  split
  · rw [SortedMap.find?_ofList_singleton]
    simp only [Std.LawfulEqCmp.compare_eq_iff_eq]
  · simp

theorem fitted_le (key : String) (n largest : Nat) : (fitted key n largest).1 ≤ largest := by
  unfold fitted
  split
  · exact Nat.zero_le _
  · rename_i h
    exact Nat.le_of_not_lt h

theorem numberFrom?_fitted {records : Records} {key : String} {n largest : Nat}
    (h : value? records key = numberRecord? n largest) :
    numberFrom? records key (fitted key n largest).1 = some n := by
  rw [numberFrom?, h, numberRecord?, fitted]
  by_cases hlarge : largest < n
  · rw [if_pos hlarge]
    exact number?_toString n
  · rw [if_neg hlarge, if_neg hlarge]

theorem textFrom_fittedText {records : Records} {key : String} {s : Octets} {width : Nat}
    (h : value? records key = textRecord? s width) :
    textFrom records key (fittedText key s width).1 = s := by
  rw [textFrom, h, textRecord?, fittedText]
  split <;> rfl

/-- A text is read from its record or from its field, where the field cuts it. -/
theorem textFrom_take {records : Records} {key : String} {s : Octets} {width : Nat}
    (h : value? records key = textRecord? s width) : textFrom records key (s.take width) = s := by
  rw [textFrom, h, textRecord?]
  split
  · rfl
  · rename_i hle
    exact List.take_of_length_le (Nat.le_of_not_lt hle)

theorem zero_not_mem_fittedText {key : String} {s : Octets} {width : Nat} (h : 0 ∉ s) :
    0 ∉ (fittedText key s width).1 ∧ (fittedText key s width).1.length ≤ width := by
  unfold fittedText
  split
  · exact ⟨List.not_mem_nil, Nat.zero_le _⟩
  · rename_i hle
    exact ⟨h, Nat.le_of_not_lt hle⟩

/-- The two fields for a name, and its record where it cannot be split. -/
def nameParts (name : Octets) : Octets × Octets × List (String × Octets) :=
  match split? name with
  | some (directory, short) => (directory, short, [])
  | none => ([], name, [("path", name)])

/-- The record of a name that cannot be split. -/
def nameRecord? (name : Octets) : Option Octets :=
  match split? name with
  | some _ => none
  | none => some name

theorem find?_nameParts (name : Octets) (k : String) :
    (SortedMap.ofList (nameParts name).2.2 : ExtendedRecords).find? k =
      if k = "path" then nameRecord? name else none := by
  unfold nameParts nameRecord?
  cases split? name with
  | some parts => simp
  | none =>
    rw [SortedMap.find?_ofList_singleton]
    simp only [Std.LawfulEqCmp.compare_eq_iff_eq]

theorem zero_not_mem_nameParts {name : Octets} (h : 0 ∉ name) (hhead : name.head? ≠ some 0x2F) :
    0 ∉ (nameParts name).2.1 ∧ 0 ∉ (nameParts name).1 ∧ (nameParts name).1.length ≤ 155 := by
  unfold nameParts
  cases hsplit : split? name with
  | none => exact ⟨h, List.not_mem_nil, Nat.zero_le _⟩
  | some parts =>
    obtain ⟨directory, short⟩ := parts
    obtain ⟨heq, hdirectory, -⟩ := split?_joined hhead hsplit
    rw [← heq] at h
    split at h
    · rename_i hnil
      exact ⟨h, by simp [hnil], hdirectory⟩
    · simp only [List.mem_append, List.mem_cons, not_or] at h
      exact ⟨h.2.2, h.1, hdirectory⟩

theorem textFrom_nameParts {records : Records} {name : Octets} {header : Header}
    (hhead : name.head? ≠ some 0x2F) (h : value? records "path" = nameRecord? name)
    (hdirectory : header.directory = (nameParts name).1)
    (hname : header.name = (nameParts name).2.1.take 100) :
    textFrom records "path" (joined header) = name := by
  rw [textFrom, h, joined, hdirectory, hname, nameRecord?, nameParts]
  cases hsplit : split? name with
  | none => rfl
  | some parts =>
    obtain ⟨directory, short⟩ := parts
    obtain ⟨heq, -, hshort⟩ := split?_joined hhead hsplit
    rw [List.take_of_length_le hshort]
    exact heq

/-- The record of a link's target that its field cuts. -/
def linkRecords (link : Octets) : List (String × Octets) :=
  if 100 < link.length then [("linkpath", link)] else []

theorem find?_linkRecords (link : Octets) (k : String) :
    (SortedMap.ofList (linkRecords link) : ExtendedRecords).find? k =
      if k = "linkpath" then textRecord? link 100 else none := by
  unfold linkRecords textRecord?
  split
  · rw [SortedMap.find?_ofList_singleton]
    simp only [Std.LawfulEqCmp.compare_eq_iff_eq]
  · simp

/-- The record of an access time, for which there is no field. -/
def atimeRecords (atime : Option Nat) : List (String × Octets) :=
  atime.toList.map fun atime => ("atime", utf8 (toString atime))

theorem find?_atimeRecords (atime : Option Nat) (k : String) :
    (SortedMap.ofList (atimeRecords atime) : ExtendedRecords).find? k =
      if k = "atime" then atime.map fun n => utf8 (toString n) else none := by
  cases atime with
  | none => simp [atimeRecords]
  | some atime =>
    rw [atimeRecords, Option.toList_some, List.map_singleton, SortedMap.find?_ofList_singleton]
    simp only [Std.LawfulEqCmp.compare_eq_iff_eq]
    rfl

theorem atime?_atimeRecords {records : Records} {atime : Option Nat}
    (h : value? records "atime" = atime.map fun n => utf8 (toString n)) :
    atime? records = some atime := by
  rw [atime?, h]
  cases atime with
  | none => rfl
  | some n => exact congrArg (Option.map some) (number?_toString n)

/-! ## All records -/

/-- The records of all that is no attribute. -/
def fieldRecords (options : ArchiveOptions) (node : Node) (spec : EntrySpec) :
    List (String × Octets) :=
  (fitted "mtime" (spec.mtime.getD options.mtime) Archive.largestLong).2
    ++ atimeRecords spec.atime
    ++ (fitted "size" spec.entry.content.length Archive.largestLong).2
    ++ (fitted "uid" (idOf spec.permissions.owner) Archive.largestShort).2
    ++ (fitted "gid" (idOf spec.permissions.group) Archive.largestShort).2
    ++ (nameParts (utf8 (nameOf node.path spec.entry))).2.2
    ++ linkRecords (linkOf spec.entry)
    ++ (fittedText "uname" (principalName spec.permissions.owner) 32).2
    ++ (fittedText "gname" (principalName spec.permissions.group) 32).2

def attributeRecords (node : Node) : List (String × Octets) :=
  node.xattrs.entries.map fun (name, value) => (ExtendedRecords.attributeKey name, value)

theorem records_ofNode (options : ArchiveOptions) (node : Node) (spec : EntrySpec) :
    (ofNode options node spec).records =
      SortedMap.ofList (attributeRecords node ++ fieldRecords options node spec) := by
  simp only [fieldRecords, ← List.append_assoc]
  rfl

theorem header_ofNode (options : ArchiveOptions) (node : Node) (spec : EntrySpec) :
    (ofNode options node spec).header =
      { memberType := typeOf spec.entry
        directory := (nameParts (utf8 (nameOf node.path spec.entry))).1
        name := (nameParts (utf8 (nameOf node.path spec.entry))).2.1
        mode := spec.effectiveMode.bits
        uid := (fitted "uid" (idOf spec.permissions.owner) Archive.largestShort).1
        gid := (fitted "gid" (idOf spec.permissions.group) Archive.largestShort).1
        size := (fitted "size" spec.entry.content.length Archive.largestLong).1
        mtime := (fitted "mtime" (spec.mtime.getD options.mtime) Archive.largestLong).1
        linkName := linkOf spec.entry
        userName := (fittedText "uname" (principalName spec.permissions.owner) 32).1
        groupName := (fittedText "gname" (principalName spec.permissions.group) 32).1
        device := deviceOf spec.entry } := rfl

/-- The keys that stand for fields. -/
def fieldKeys : List String :=
  ["mtime", "atime", "size", "uid", "gid", "path", "linkpath", "uname", "gname"]

/-- The record under a key that stands for a field. -/
def fieldRecord? (options : ArchiveOptions) (node : Node) (spec : EntrySpec) :
    String → Option Octets
  | "mtime" => numberRecord? (spec.mtime.getD options.mtime) Archive.largestLong
  | "atime" => spec.atime.map fun n => utf8 (toString n)
  | "size" => numberRecord? spec.entry.content.length Archive.largestLong
  | "uid" => numberRecord? (idOf spec.permissions.owner) Archive.largestShort
  | "gid" => numberRecord? (idOf spec.permissions.group) Archive.largestShort
  | "path" => nameRecord? (utf8 (nameOf node.path spec.entry))
  | "linkpath" => textRecord? (linkOf spec.entry) 100
  | "uname" => textRecord? (principalName spec.permissions.owner) 32
  | "gname" => textRecord? (principalName spec.permissions.group) 32
  | _ => none

theorem find?_fieldRecords (options : ArchiveOptions) (node : Node) (spec : EntrySpec) {k : String}
    (hk : k ∈ fieldKeys) :
    (SortedMap.ofList (fieldRecords options node spec) : ExtendedRecords).find? k =
      fieldRecord? options node spec k := by
  simp only [fieldKeys, List.mem_cons, List.not_mem_nil, or_false] at hk
  rcases hk with rfl | rfl | rfl | rfl | rfl | rfl | rfl | rfl | rfl <;>
    simp [fieldRecords, fieldRecord?, SortedMap.find?_ofList_append, find?_fitted, find?_fittedText,
      find?_nameParts, find?_linkRecords, find?_atimeRecords]

theorem find?_fieldRecords_of_not_mem (options : ArchiveOptions) (node : Node) (spec : EntrySpec)
    {k : String} (hk : k ∉ fieldKeys) :
    (SortedMap.ofList (fieldRecords options node spec) : ExtendedRecords).find? k = none := by
  simp only [fieldKeys, List.mem_cons, List.not_mem_nil, or_false, not_or] at hk
  simp [fieldRecords, SortedMap.find?_ofList_append, find?_fitted, find?_fittedText, find?_nameParts,
    find?_linkRecords, find?_atimeRecords, hk]

/-! ### Attributes -/

/-- No key that stands for a field is one of an attribute. -/
theorem marker_not_isPrefixOf : ∀ k ∈ fieldKeys, (utf8 "SCHILY.xattr.").isPrefixOf (utf8 k) = false := by
  decide

theorem marker_isPrefixOf (name : String) :
    (utf8 "SCHILY.xattr.").isPrefixOf (utf8 (ExtendedRecords.attributeKey name)) = true := by
  rw [ExtendedRecords.attributeKey, utf8_append, List.isPrefixOf_iff_prefix]
  exact List.prefix_append _ _

theorem attributeKey_not_mem_fieldKeys (name : String) :
    ExtendedRecords.attributeKey name ∉ fieldKeys := by
  intro h
  have hnot := marker_not_isPrefixOf _ h
  rw [marker_isPrefixOf] at hnot
  cases hnot

theorem attribute?_attributeKey (name : String) (value : Octets) :
    attribute? (utf8 (ExtendedRecords.attributeKey name), value) = some (utf8 name, value) := by
  simp only [attribute?, marker_isPrefixOf, if_true]
  rw [ExtendedRecords.attributeKey, utf8_append, List.drop_left]

theorem attributeRecords_pairwise (node : Node) :
    (attributeRecords node).Pairwise fun a b => byteOrder a.1 b.1 = .lt := by
  refine List.pairwise_map.2 (node.xattrs.sorted.imp fun {a b} h => ?_)
  show byteOrder ("SCHILY.xattr." ++ a.1) ("SCHILY.xattr." ++ b.1) = .lt
  rw [byteOrder, utf8_append, utf8_append, compare_append_left]
  exact h

theorem find?_attributeRecords (node : Node) {k : String} (hk : k ∈ fieldKeys) :
    (SortedMap.ofList (attributeRecords node) : ExtendedRecords).find? k = none := by
  refine SortedMap.find?_foldl_insert_of_not_mem (fun hmem => ?_) _
  obtain ⟨e, he, rfl⟩ := List.mem_map.1 hmem
  obtain ⟨⟨name, value⟩, -, rfl⟩ := List.mem_map.1 he
  exact attributeKey_not_mem_fieldKeys name hk

/-- The records of attributes are all records but those that stand for fields. -/
theorem filter_records (options : ArchiveOptions) (node : Node) (spec : EntrySpec) :
    (ofNode options node spec).records.entries.filter (fun e => e.1 ∉ fieldKeys) =
      attributeRecords node := by
  have hfilter : (ofNode options node spec).records.filter (fun k _ => k ∉ fieldKeys) =
      ⟨attributeRecords node, attributeRecords_pairwise node⟩ := by
    have hattributes : (SortedMap.ofList (attributeRecords node) : ExtendedRecords) =
        ⟨attributeRecords node, attributeRecords_pairwise node⟩ :=
      SortedMap.ext fun k => by
        rw [SortedMap.find?, SortedMap.entries_ofList (attributeRecords_pairwise node)]
        rfl
    apply SortedMap.ext
    intro k
    rw [SortedMap.find?_filter, records_ofNode, SortedMap.find?_ofList_append, ← hattributes]
    by_cases hk : k ∈ fieldKeys
    · rw [find?_attributeRecords node hk]
      cases (SortedMap.ofList (fieldRecords options node spec) : ExtendedRecords).find? k <;> simp [hk]
    · rw [find?_fieldRecords_of_not_mem options node spec hk, Option.none_or]
      cases (SortedMap.ofList (attributeRecords node) : ExtendedRecords).find? k <;> simp [hk]
  exact congrArg SortedMap.entries hfilter

/-- The records of a member as they are read. -/
def readRecords (options : ArchiveOptions) (node : Node) (spec : EntrySpec) : Records :=
  (ofNode options node spec).records.entries.map fun (key, value) => (utf8 key, value)

theorem find?_records (options : ArchiveOptions) (node : Node) (spec : EntrySpec) {k : String}
    (hk : k ∈ fieldKeys) :
    (ofNode options node spec).records.find? k = fieldRecord? options node spec k := by
  rw [records_ofNode, SortedMap.find?_ofList_append, find?_fieldRecords options node spec hk,
    find?_attributeRecords node hk, Option.or_none]

theorem value?_readRecords (options : ArchiveOptions) (node : Node) (spec : EntrySpec) {k : String}
    (hk : k ∈ fieldKeys) :
    value? (readRecords options node spec) k = fieldRecord? options node spec k := by
  rw [readRecords, value?_records, find?_records options node spec hk]

theorem filterMap_readRecords (options : ArchiveOptions) (node : Node) (spec : EntrySpec) :
    (readRecords options node spec).filterMap attribute? =
      node.xattrs.entries.map fun (name, value) => (utf8 name, value) := by
  have hfields : ∀ e : String × Octets, e.1 ∈ fieldKeys → attribute? (utf8 e.1, e.2) = none := by
    intro e he
    simp [attribute?, marker_not_isPrefixOf _ he]
  -- The records that stand for fields may be left out, and then all others are attributes.
  have hskip : (ofNode options node spec).records.entries.filterMap
        (fun e => attribute? (utf8 e.1, e.2)) =
      ((ofNode options node spec).records.entries.filter (fun e => e.1 ∉ fieldKeys)).filterMap
        (fun e => attribute? (utf8 e.1, e.2)) := by
    rw [List.filterMap_filter]
    apply List.filterMap_congr
    intro e _
    by_cases he : e.1 ∈ fieldKeys
    · simp [he, hfields e he]
    · simp [he]
  rw [readRecords, List.filterMap_map]
  apply Eq.trans hskip
  rw [filter_records, attributeRecords, List.filterMap_map, ← List.filterMap_eq_map]
  exact List.filterMap_congr fun e _ => attribute?_attributeKey e.1 e.2

/-- No key holds an equals sign, as no valid attribute has one in its name. -/
theorem equals_not_mem_keys (options : ArchiveOptions) {node : Node} (hvalid : node.IsValid)
    (spec : EntrySpec) : ∀ e ∈ (ofNode options node spec).records.entries, 0x3D ∉ utf8 e.1 := by
  have hfields : ∀ k ∈ fieldKeys, 0x3D ∉ utf8 k := by decide
  intro e he
  by_cases hk : e.1 ∈ fieldKeys
  · exact hfields e.1 hk
  · have hmem : e ∈ attributeRecords node := by
      rw [← filter_records options node spec]
      exact List.mem_filter.2 ⟨he, decide_eq_true hk⟩
    obtain ⟨⟨name, value⟩, hattribute, rfl⟩ := List.mem_map.1 hmem
    have hfault := hvalid.xattrs name value (SortedMap.mem_entries_iff.1 hattribute)
    have hequals : '=' ∉ name.toList := by
      intro h
      unfold Attribute.fault? at hfault
      split at hfault
      · cases hfault
      · rw [if_pos (.inr h)] at hfault
        cases hfault
    show 0x3D ∉ utf8 ("SCHILY.xattr." ++ name)
    rw [utf8_append, List.mem_append, not_or]
    exact ⟨by decide, octet_not_mem_utf8 (by decide) hequals⟩

/-! ## Headers -/

theorem zero_not_mem_principalName {o : Option Principal}
    (h : ∀ p, o = some p → p.fault? = none) : 0 ∉ principalName o := by
  unfold principalName
  cases hname : o.bind (·.name) with
  | none => decide
  | some name =>
    obtain ⟨p, rfl, hp⟩ := Option.bind_eq_some_iff.1 hname
    apply octet_not_mem_utf8 (show '\x00'.toNat < 0x80 by decide)
    intro hnul
    have hmem : '\x00' ∈ name.toList := hnul
    have hfault := h p rfl
    simp only [Principal.fault?, hp, if_pos hmem] at hfault
    split at hfault <;> cases hfault

theorem zero_not_mem_linkOf {entry : Entry} (h : entry.fault? = none) : 0 ∉ linkOf entry := by
  cases entry with
  | symlink target =>
    apply octet_not_mem_utf8 (show '\x00'.toNat < 0x80 by decide)
    intro hnul
    rw [Entry.fault?, if_pos hnul] at h
    split at h <;> cases h
  | _ => exact List.not_mem_nil

theorem effectiveMode_le {spec : EntrySpec} (h : spec.permissions.fault? = none) :
    spec.effectiveMode.bits ≤ Archive.largestShort := by
  unfold EntrySpec.effectiveMode
  cases hmode : spec.permissions.mode with
  | none => cases spec.entry <;> simp [Entry.defaultMode, Archive.largestShort]
  | some mode =>
    have hle := Mode.fault?_eq_none_iff.1 ((permissions_fault?_eq_none_iff.1 h).1 mode hmode)
    exact Nat.le_trans hle (by decide)

theorem isEncodable_ofNode (options : ArchiveOptions) (node : Node) {spec : EntrySpec}
    (hvalid : spec.IsValid) (hfault : Archive.entryFault? spec.entry = none) :
    (ofNode options node spec).header.IsEncodable := by
  obtain ⟨-, howner, hgroup⟩ := permissions_fault?_eq_none_iff.1 hvalid.permissions
  obtain ⟨hname, hdirectory⟩ := zero_not_mem_nameParts
    (zero_not_mem_nameOf node.path spec.entry) (head?_nameOf node.path spec.entry)
  rw [header_ofNode]
  -- Whatever is too large was left to a record, except what the checks exclude.
  refine ⟨effectiveMode_le hvalid.permissions, fitted_le _ _ _, fitted_le _ _ _, fitted_le _ _ _,
    fitted_le _ _ _, hname, zero_not_mem_linkOf hvalid.entry,
    zero_not_mem_fittedText (zero_not_mem_principalName howner),
    zero_not_mem_fittedText (zero_not_mem_principalName hgroup), hdirectory, ?_, ?_⟩
  · cases spec.entry with
    | device deviceClass major minor => cases deviceClass <;> simp [typeOf, deviceOf]
    | _ => simp [typeOf, deviceOf]
  · intro major minor hnumbers
    cases hentry : spec.entry with
    | device deviceClass major' minor' =>
      rw [hentry] at hnumbers hfault
      cases hnumbers
      unfold Archive.entryFault? at hfault
      simp only at hfault
      split at hfault
      · cases hfault
      · rename_i hle
        omega
    | _ =>
      rw [hentry] at hnumbers
      cases hnumbers

theorem isEncodable_recordsHeader (options : ArchiveOptions) (node : Node) (spec : EntrySpec)
    {size : Nat} (hsize : size ≤ Archive.largestLong) :
    (recordsHeader options node spec size).IsEncodable where
  mode := show 0o644 ≤ Archive.largestShort by decide
  uid := Nat.zero_le _
  gid := Nat.zero_le _
  size := hsize
  mtime := Nat.min_le_right _ _
  name := by
    have hfile : '\x00' ∉ (if node.path.isRoot then "." else node.path.fileName).toList := by
      split
      · decide
      · unfold TargetPath.fileName
        cases hlast : node.path.segments.getLast? with
        | none => simp [List.getLastD_eq_getLast?, hlast]
        | some s =>
          rw [List.getLastD_eq_getLast?, hlast]
          exact (node.path.valid s (List.mem_of_getLast? hlast)).2.2.2.2
    rw [recordsHeader, utf8_append, List.mem_append, not_or]
    exact ⟨by decide, octet_not_mem_utf8 (by decide) hfile⟩
  linkName := List.not_mem_nil
  userName := ⟨List.not_mem_nil, Nat.zero_le _⟩
  groupName := ⟨List.not_mem_nil, Nat.zero_le _⟩
  directory := ⟨List.not_mem_nil, Nat.zero_le _⟩
  device := by simp [recordsHeader]
  numbers h := by cases h

end Member

/-! ## Members -/

/-- What is unpacked with an entry in it. -/
def ArchiveReader.Found.withEntry (found : Found) : Entry → Found
  | .directory => { found with memberType := .directory }
  | .file content => { found with memberType := .regular, content }
  | .symlink target => { found with memberType := .symlink, linkName := utf8 target }
  | .fifo => { found with memberType := .fifo }
  | .device .char major minor =>
    { found with memberType := .charDevice, device := some (major, minor) }
  | .device .block major minor =>
    { found with memberType := .blockDevice, device := some (major, minor) }

/-- What a node comes to when it is unpacked. -/
def ArchiveReader.Found.ofNode (options : ArchiveOptions) (node : Node) (spec : EntrySpec) : Found :=
  Found.withEntry
    { name := utf8 (node.path.relative ++ if spec.entry = .directory then "/" else "")
      memberType := .regular
      mode := (spec.permissions.mode.getD spec.entry.defaultMode).bits
      uid := (spec.permissions.owner.bind (·.id)).getD 0
      gid := (spec.permissions.group.bind (·.id)).getD 0
      userName := utf8 ((spec.permissions.owner.bind (·.name)).getD "")
      groupName := utf8 ((spec.permissions.group.bind (·.name)).getD "")
      mtime := spec.mtime.getD options.mtime
      atime := spec.atime
      linkName := []
      device := none
      xattrs := node.xattrs.entries.map fun (name, value) => (utf8 name, value)
      content := [] }
    spec.entry

namespace Member

theorem nameOf_eq (path : TargetPath) (entry : Entry) :
    nameOf path entry = path.relative ++ if entry = .directory then "/" else "" := by
  cases entry <;> simp [nameOf]

theorem withEntry_eq (found : Found) (hlink : found.linkName = []) (hdevice : found.device = none)
    (hcontent : found.content = []) (entry : Entry) :
    found.withEntry entry =
      { found with
        memberType := typeOf entry
        linkName := linkOf entry
        device := deviceOf entry
        content := entry.content } := by
  obtain ⟨⟩ := found
  cases hlink
  cases hdevice
  cases hcontent
  cases entry with
  | device deviceClass major minor => cases deviceClass <;> rfl
  | _ => rfl

/-- From its header and its records, a member is read as what its node comes to. -/
theorem member?_ofNode (options : ArchiveOptions) (node : Node) (spec : EntrySpec) :
    member? (readRecords options node spec) (ofNode options node spec).header.shortened
      (ofNode options node spec).content = some (Found.ofNode options node spec) := by
  rw [header_ofNode, Header.shortened, Found.ofNode, withEntry_eq _ rfl rfl rfl]
  have hvalue : ∀ {k : String}, k ∈ fieldKeys →
      value? (readRecords options node spec) k = fieldRecord? options node spec k := fun hk =>
    value?_readRecords options node spec hk
  have hname : ∀ {header : Header},
      header.directory = (nameParts (utf8 (nameOf node.path spec.entry))).1 →
      header.name = (nameParts (utf8 (nameOf node.path spec.entry))).2.1.take 100 →
      textFrom (readRecords options node spec) "path" (joined header) =
        utf8 (node.path.relative ++ if spec.entry = .directory then "/" else "") := by
    intro header hdirectory hshort
    rw [← nameOf_eq]
    exact textFrom_nameParts (head?_nameOf node.path spec.entry) (hvalue (by decide)) hdirectory hshort
  rw [member?]
  simp only [numberFrom?_fitted (hvalue (show "uid" ∈ fieldKeys by decide)),
    numberFrom?_fitted (hvalue (show "gid" ∈ fieldKeys by decide)),
    numberFrom?_fitted (hvalue (show "mtime" ∈ fieldKeys by decide)),
    atime?_atimeRecords (hvalue (show "atime" ∈ fieldKeys by decide)),
    textFrom_fittedText (hvalue (show "uname" ∈ fieldKeys by decide)),
    textFrom_fittedText (hvalue (show "gname" ∈ fieldKeys by decide)),
    textFrom_take (hvalue (show "linkpath" ∈ fieldKeys by decide)),
    filterMap_readRecords, Option.bind_eq_bind, Option.bind_some]
  rw [hname rfl rfl]
  -- Mode, type, device numbers and content have no records.
  rfl

theorem typeOf_ne_extended (entry : Entry) : typeOf entry ≠ .extended := by
  cases entry with
  | device deviceClass major minor => cases deviceClass <;> simp [typeOf]
  | _ => simp [typeOf]

theorem size?_ofNode (options : ArchiveOptions) (node : Node) (spec : EntrySpec) :
    size? (readRecords options node spec) (ofNode options node spec).header.shortened =
      some (ofNode options node spec).content.length := by
  rw [header_ofNode, Header.shortened, size?, if_neg (typeOf_ne_extended spec.entry)]
  exact numberFrom?_fitted (value?_readRecords options node spec (show "size" ∈ fieldKeys by decide))

end Member

end Provision
