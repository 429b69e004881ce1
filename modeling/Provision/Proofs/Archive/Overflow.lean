import Provision.Proofs.Archive.RoundTrip

/-! # What overflows a header

Ahead of a member stand the records of what its header has no room for, of its access time and of its attributes, and
nothing else. What has a record is left out of the header, and all else stands there as it is.

* `Member.split?_eq_none_iff` — the names that do not fit into the two fields for them.
* `Member.NeedsRecord` — what a node needs records for; `Member.mem_keys_records_iff` — these are the records there are.
* `Member.IsWritten`, `bytes_isWritten` — the statement.
-/

namespace Provision

open ArchiveReader

namespace Member

/-! ## Names that do not fit -/

/-- Whether a separator divides a name into a front part of at most 155 octets and at least one octet and at most 100
    behind it. -/
def HasSplit (name : Octets) : Prop :=
  ∃ i ≤ 155, name[i]? = some 0x2F ∧ 1 ≤ (name.drop (i + 1)).length ∧ (name.drop (i + 1)).length ≤ 100

theorem splitAt?_eq_none_iff {front name : Octets} :
    splitAt? front name = none ↔ ∀ i, front.length + i ≤ 155 → name[i]? = some 0x2F →
      ¬(1 ≤ (name.drop (i + 1)).length ∧ (name.drop (i + 1)).length ≤ 100) := by
  induction name generalizing front with
  | nil => simp [splitAt?]
  | cons b rest ih =>
    rw [splitAt?]
    split
    · rename_i hlong
      refine iff_of_true rfl fun i hi => ?_
      omega
    · rename_i hshort
      split
      · rename_i hfits
        refine iff_of_false (by simp) fun hnone => hnone 0 (by omega) (by simp [hfits.1]) ?_
        exact ⟨List.length_pos_iff.2 hfits.2.1, hfits.2.2⟩
      · rename_i hfits
        rw [ih, List.length_append, List.length_singleton]
        constructor
        · rintro hrest (_ | i) hi hsep
          · -- The separator in front leaves too much or nothing.
            rintro ⟨hpos, hle⟩
            exact hfits ⟨by simpa using hsep, List.length_pos_iff.1 hpos, hle⟩
          · exact hrest i (by omega) hsep
        · intro hall i hi hsep
          exact hall (i + 1) (by omega) hsep

/-- The names that do not fit: those that are too long for one field and that no separator divides. -/
theorem split?_eq_none_iff {name : Octets} : split? name = none ↔ 100 < name.length ∧ ¬HasSplit name := by
  rw [split?]
  split
  · rename_i hle
    exact iff_of_false (by simp) fun h => absurd h.1 (Nat.not_lt.2 hle)
  · rename_i hlong
    simp only [splitAt?_eq_none_iff, List.length_nil, Nat.zero_add, HasSplit, not_exists, not_and, Nat.lt_of_not_le hlong,
      true_and]

/-- The separator behind the name of a directory does not divide it. -/
example : split? (List.replicate 100 0x61 ++ [0x2F]) = none := by decide

/-! ## What needs a record -/

/-- What a node needs records for, by their keys. -/
@[mk_iff]
inductive NeedsRecord (options : ArchiveOptions) (n : Node) (spec : EntrySpec) : String → Prop
  | xattr {name : String} : name ∈ n.xattrs.keys → NeedsRecord options n spec ("SCHILY.xattr." ++ name)
  | path : 100 < (utf8 (nameOf n.path spec.entry)).length → ¬HasSplit (utf8 (nameOf n.path spec.entry)) →
    NeedsRecord options n spec "path"
  | linkpath {target : String} : spec.entry = .symlink target → 100 < (utf8 target).length →
    NeedsRecord options n spec "linkpath"
  | uid : 2097151 < idOf spec.permissions.owner → NeedsRecord options n spec "uid"
  | gid : 2097151 < idOf spec.permissions.group → NeedsRecord options n spec "gid"
  | uname : 32 < (principalName spec.permissions.owner).length → NeedsRecord options n spec "uname"
  | gname : 32 < (principalName spec.permissions.group).length → NeedsRecord options n spec "gname"
  | mtime : 8589934591 < spec.mtime.getD options.mtime → NeedsRecord options n spec "mtime"
  | size : 8589934591 < spec.entry.content.length → NeedsRecord options n spec "size"
  | atime : spec.atime.isSome → NeedsRecord options n spec "atime"

variable {options : ArchiveOptions} {n : Node} {spec : EntrySpec} {key : String}

theorem isSome_numberRecord?_iff {number largest : Nat} : (numberRecord? number largest).isSome ↔ largest < number := by
  rw [numberRecord?]
  split <;> simp_all

theorem isSome_textRecord?_iff {text : Octets} {width : Nat} : (textRecord? text width).isSome ↔ width < text.length := by
  rw [textRecord?]
  split <;> simp_all

theorem isSome_nameRecord?_iff {name : Octets} : (nameRecord? name).isSome ↔ 100 < name.length ∧ ¬HasSplit name := by
  rw [← split?_eq_none_iff, nameRecord?]
  split <;> simp_all

theorem lt_length_linkOf_iff {entry : Entry} :
    100 < (linkOf entry).length ↔ ∃ target, entry = .symlink target ∧ 100 < (utf8 target).length := by
  cases entry <;> simp [linkOf]

theorem isSome_fieldRecord?_iff (hkey : key ∈ fieldKeys) :
    (fieldRecord? options n spec key).isSome ↔ NeedsRecord options n spec key := by
  have hxattr (name : String) : key ≠ "SCHILY.xattr." ++ name := by
    rintro rfl
    exact attributeKey_not_mem_fieldKeys name hkey
  simp only [fieldKeys, List.mem_cons, List.not_mem_nil, or_false] at hkey
  -- Under each of the keys one case of the definition is left.
  rw [needsRecord_iff]
  rcases hkey with rfl | rfl | rfl | rfl | rfl | rfl | rfl | rfl | rfl <;>
    simp [fieldRecord?, hxattr, isSome_numberRecord?_iff, isSome_textRecord?_iff, isSome_nameRecord?_iff,
      lt_length_linkOf_iff, Archive.largestLong, Archive.largestShort]

/-- Besides the keys that stand for fields there are those of the attributes. -/
theorem mem_keys_records_iff_of_not_mem (hkey : key ∉ fieldKeys) :
    key ∈ (ofNode options n spec).records.keys ↔ ∃ name ∈ n.xattrs.keys, key = ExtendedRecords.attributeKey name := by
  have hattributes : key ∈ (attributeRecords n).map (·.1) ↔
      ∃ name ∈ n.xattrs.keys, key = ExtendedRecords.attributeKey name := by
    simp only [attributeRecords, SortedMap.keys, List.map_map, List.mem_map, Function.comp_def, exists_exists_and_eq_and,
      @eq_comm _ key]
  rw [← hattributes, ← filter_records options n spec, SortedMap.keys]
  simp only [List.mem_map, List.mem_filter, decide_eq_true_eq]
  constructor
  · rintro ⟨entry, hentry, rfl⟩
    exact ⟨entry, ⟨hentry, hkey⟩, rfl⟩
  · rintro ⟨entry, ⟨hentry, -⟩, rfl⟩
    exact ⟨entry, hentry, rfl⟩

/-- The records of a member are those that its node needs. -/
theorem mem_keys_records_iff : key ∈ (ofNode options n spec).records.keys ↔ NeedsRecord options n spec key := by
  by_cases hkey : key ∈ fieldKeys
  · rw [SortedMap.mem_keys_iff, ← isSome_fieldRecord?_iff hkey, find?_records options n spec hkey,
      Option.isSome_iff_exists]
  · rw [mem_keys_records_iff_of_not_mem hkey, needsRecord_iff]
    simp only [fieldKeys, List.mem_cons, List.not_mem_nil, or_false, not_or] at hkey
    simp [hkey, ExtendedRecords.attributeKey]

/-! ## What is left out of the header -/

/-- A field is empty where there is a record in its place, and it holds its value otherwise. -/
structure IsLeft {α : Type} (recorded : Prop) (empty value field : α) : Prop where
  empty_of : recorded → field = empty
  value_of : ¬recorded → field = value

theorem fitted_isLeft {number largest : Nat} (hkey : key ∈ fieldKeys)
    (hrecord : fieldRecord? options n spec key = numberRecord? number largest) :
    IsLeft (NeedsRecord options n spec key) 0 number (fitted key number largest).1 := by
  have hneeds : NeedsRecord options n spec key ↔ largest < number := by
    rw [← isSome_fieldRecord?_iff hkey, hrecord, isSome_numberRecord?_iff]
  refine ⟨fun h => ?_, fun h => ?_⟩
  · rw [fitted, if_pos (hneeds.1 h)]
  · rw [fitted, if_neg (h ∘ hneeds.2)]

theorem fittedText_isLeft {text : Octets} {width : Nat} (hkey : key ∈ fieldKeys)
    (hrecord : fieldRecord? options n spec key = textRecord? text width) :
    IsLeft (NeedsRecord options n spec key) [] text (fittedText key text width).1 := by
  have hneeds : NeedsRecord options n spec key ↔ width < text.length := by
    rw [← isSome_fieldRecord?_iff hkey, hrecord, isSome_textRecord?_iff]
  refine ⟨fun h => ?_, fun h => ?_⟩
  · rw [fittedText, if_pos (hneeds.1 h)]
  · rw [fittedText, if_neg (h ∘ hneeds.2)]

theorem joined_of_split? {name directory short : Octets} (hhead : name.head? ≠ some 0x2F)
    (hsplit : split? name = some (directory, short)) {header : Header} (hdirectory : header.directory = directory)
    (hshort : header.name = short.take 100) :
    header.directory.length ≤ 155 ∧ header.name.length ≤ 100 ∧ joined header = name := by
  obtain ⟨hjoined, hfront, hback⟩ := split?_joined hhead hsplit
  rw [List.take_of_length_le hback] at hshort
  rw [joined, hdirectory, hshort]
  exact ⟨hfront, hback, hjoined⟩

/-! ## The statement -/

/-- What a node is written as: some octets ahead, the records in them, and the header as it is read from its block. -/
structure IsWritten (options : ArchiveOptions) (n : Node) (spec : EntrySpec) (octets ahead : Octets)
    (records : Records) (header : Header) : Prop where
  /-- What is ahead is followed by the block of the header, the content, and what fills the last block. -/
  octets_eq : ∃ block, block.length = 512 ∧ header? block = some header ∧
    octets = ahead ++ block ++ spec.entry.content ++ blockFill spec.entry.content.length
  /-- There is nothing ahead exactly when no record is needed. -/
  ahead_eq_nil_iff : ahead = [] ↔ ∀ key, ¬NeedsRecord options n spec key
  /-- Otherwise there are the records, with a header of their own. -/
  ahead_eq : ahead ≠ [] → ∃ (own : Header) (body : Octets), own.memberType = .extended ∧ own.size = body.length ∧
    ahead = own.encode ++ body ++ blockFill body.length ∧ records? body = some records
  /-- They are the ones that are needed, each once. -/
  keys : ∃ keys : List String, records.map (·.1) = keys.map utf8 ∧ keys.Nodup ∧
    ∀ key, key ∈ keys ↔ NeedsRecord options n spec key
  uid : IsLeft (NeedsRecord options n spec "uid") 0 (idOf spec.permissions.owner) header.uid
  gid : IsLeft (NeedsRecord options n spec "gid") 0 (idOf spec.permissions.group) header.gid
  mtime : IsLeft (NeedsRecord options n spec "mtime") 0 (spec.mtime.getD options.mtime) header.mtime
  size : IsLeft (NeedsRecord options n spec "size") 0 spec.entry.content.length header.size
  userName : IsLeft (NeedsRecord options n spec "uname") [] (principalName spec.permissions.owner) header.userName
  groupName : IsLeft (NeedsRecord options n spec "gname") [] (principalName spec.permissions.group) header.groupName
  /-- A name without a record fits into the two fields for it, and these are joined to the name. -/
  name : ¬NeedsRecord options n spec "path" → header.directory.length ≤ 155 ∧ header.name.length ≤ 100 ∧
    joined header = utf8 (nameOf n.path spec.entry)

/-- What stands ahead of a member. -/
def aheadOf (options : ArchiveOptions) (n : Node) (spec : EntrySpec) : Octets :=
  if (ofNode options n spec).records.isEmpty then []
  else (blocks (recordsHeader options n spec (ofNode options n spec).records.encode.length)
    (ofNode options n spec).records.encode).flatten

theorem blocks_flatten (h : Header) (content : Octets) :
    (blocks h content).flatten = h.encode ++ content ++ blockFill content.length := by
  simpa using flatten_blocks h content []

theorem aheadOf_eq_nil_iff : aheadOf options n spec = [] ↔ ∀ key, ¬NeedsRecord options n spec key := by
  have hempty : (ofNode options n spec).records.isEmpty ↔ ∀ key, ¬NeedsRecord options n spec key := by
    simp only [← mem_keys_records_iff, ← List.eq_nil_iff_forall_not_mem, SortedMap.keys, List.map_eq_nil_iff,
      SortedMap.isEmpty, List.isEmpty_iff]
  rw [← hempty, aheadOf]
  split
  · rename_i hnone
    exact iff_of_true rfl hnone
  · rename_i hsome
    -- The header of the records alone takes a block.
    refine iff_of_false (fun hnil => ?_) hsome
    have hlength := congrArg List.length hnil
    simp only [blocks_flatten, List.length_append, Header.length_encode, List.length_nil] at hlength
    omega

theorem flatten_pieces_isWritten (hnode : n.IsValid) (hspec : spec.IsValid)
    (hnumbers : Archive.entryFault? spec.entry = none) :
    IsWritten options n spec (pieces options n spec).flatten (aheadOf options n spec) (readRecords options n spec)
      (ofNode options n spec).header.shortened where
  octets_eq := by
    refine ⟨(ofNode options n spec).header.encode, Header.length_encode _,
      header?_encode (isEncodable_ofNode options n hspec hnumbers), ?_⟩
    have hpieces := flatten_pieces options n spec []
    rw [List.append_nil, List.append_nil, blocks_flatten _ (ofNode options n spec).content] at hpieces
    simp only [hpieces, List.append_assoc]
    rfl
  ahead_eq_nil_iff := aheadOf_eq_nil_iff
  ahead_eq := by
    intro hne
    have hempty : ¬(ofNode options n spec).records.isEmpty := fun h => hne (if_pos h)
    exact ⟨_, _, rfl, rfl, (if_neg hempty).trans (blocks_flatten _ _),
      records?_encode (equals_not_mem_keys options hnode spec)⟩
  keys := by
    refine ⟨(ofNode options n spec).records.keys, ?_, SortedMap.keys_nodup _, fun key => mem_keys_records_iff⟩
    rw [readRecords, SortedMap.keys, List.map_map, List.map_map]
    rfl
  uid := fitted_isLeft (by decide) rfl
  gid := fitted_isLeft (by decide) rfl
  mtime := fitted_isLeft (by decide) rfl
  size := fitted_isLeft (by decide) rfl
  userName := fittedText_isLeft (by decide) rfl
  groupName := fittedText_isLeft (by decide) rfl
  name := by
    -- Without a record the name was split, and both parts are shorter than their fields.
    intro hneeds
    rw [← isSome_fieldRecord?_iff (by decide)] at hneeds
    cases hsplit : split? (utf8 (nameOf n.path spec.entry)) with
    | none => simp [fieldRecord?, nameRecord?, hsplit] at hneeds
    | some parts =>
      have hparts : nameParts (utf8 (nameOf n.path spec.entry)) = (parts.1, parts.2, []) := by rw [nameParts, hsplit]
      refine joined_of_split? (head?_nameOf n.path spec.entry) hsplit ?_ ?_ <;>
        rw [header_ofNode, Header.shortened, hparts]

end Member

/-- In the archive of a sequence that declarations resolve to, each node that has a member is written with the records
    that it needs and no others. -/
theorem bytes_isWritten {strictness : Strictness} {ds : List Declaration} {s : Sequence}
    (hresolve : resolve strictness ds = .ok s) {options : ArchiveOptions}
    (hcheck : (Backend.archive options).check s = .ok ()) :
    ∃ parts, (Backend.archive options).bytes s = .ok (parts.flatten ++ Archive.closing) ∧
      List.Forall₂ (fun entry octets => ∃ ahead records header,
        Member.IsWritten options entry.1 entry.2 octets ahead records header) (Backend.members s) parts := by
  obtain ⟨hfault, hnodes⟩ := of_check hcheck
  refine ⟨(Backend.members s).map fun e => (Member.pieces options e.1 e.2).flatten, ?_, ?_⟩
  · rw [Backend.bytes, hfault, ← List.flatMap_def, ← octets_pieces]
  · rw [List.forall₂_map_right_iff, List.forall₂_same]
    intro e he
    obtain ⟨hn, hspec⟩ := mem_of_mem_members he
    obtain ⟨spec, hspec', hnumbers⟩ := hnodes e.1 hn
    obtain rfl : spec = e.2 := Option.some.inj (hspec'.symm.trans hspec)
    have hvalid := isValid_of_resolve hresolve hn
    exact ⟨_, _, _, Member.flatten_pieces_isWritten hvalid (hvalid.spec e.2 hspec) hnumbers⟩

/-- A file with an attribute and a late time, whose owner has an id too large and a name that just fits, and whose group
    has the opposite, and a link whose target is too long by one octet. -/
def bulky : List Declaration :=
  [⟨⟨["crate"], by decide⟩,
      .entry ⟨.file [1], ⟨none, some ⟨some (String.ofList (List.replicate 32 'o')), some 2097152⟩,
        some ⟨some (String.ofList (List.replicate 33 'g')), some 2097151⟩⟩, some 8589934592, none⟩,
      ⟨"site", 0⟩, [], by decide, by decide⟩,
    ⟨⟨["crate"], by decide⟩, .xattr ⟨"user.n", [0]⟩, ⟨"site", 1⟩, [], by decide, by decide⟩,
    ⟨⟨["ramp"], by decide⟩, .entry ⟨.symlink (String.ofList (List.replicate 101 't')), .none, none, some 7⟩, ⟨"site", 2⟩,
      [], by decide, by decide⟩]

/-- The records that are written, by their keys. -/
theorem bulky_isWritten : ∃ s parts, resolve .lenient bulky = .ok s ∧
    (Backend.archive ⟨0⟩).check s = .ok () ∧
    (Backend.archive ⟨0⟩).bytes s = .ok (parts.flatten ++ Archive.closing) ∧
    List.Forall₂ (fun entry octets => ∃ ahead records header,
      Member.IsWritten ⟨0⟩ entry.1 entry.2 octets ahead records header) (Backend.members s) parts ∧
    (Backend.members s).map (fun e => (Member.ofNode ⟨0⟩ e.1 e.2).records.keys) =
      [["SCHILY.xattr.user.n", "gname", "mtime", "uid"], ["atime", "linkpath"]] := by
  have hrun : (resolve .lenient bulky).toOption.map (fun s => (((Backend.archive ⟨0⟩).fault? s).isNone,
      (Backend.members s).map fun e => (Member.ofNode ⟨0⟩ e.1 e.2).records.keys)) =
      some (true, [["SCHILY.xattr.user.n", "gname", "mtime", "uid"], ["atime", "linkpath"]]) := by cbv
  cases hs : resolve .lenient bulky with
  | error e => rw [hs] at hrun; cases hrun
  | ok s =>
    rw [hs] at hrun
    obtain ⟨hfault, hkeys⟩ : _ ∧ _ := by simpa only [Prod.mk.injEq] using Option.some.inj hrun
    have hcheck : (Backend.archive ⟨0⟩).check s = .ok () := by
      rw [Backend.check, Option.isNone_iff_eq_none.1 hfault]
    obtain ⟨parts, hbytes, hparts⟩ := bytes_isWritten hs hcheck
    exact ⟨s, parts, rfl, hcheck, hbytes, hparts, hkeys⟩

end Provision
