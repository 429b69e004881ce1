import Provision.Archive.Header
import Provision.Archive.Record
import Provision.Merge.Graph

/-! # Members of an archive

A node becomes a member: a header block, the content, and before them the records of all that the
header has no room for.

* `Member.ofNode` — the member of a node; `Archive.skips` — the one node that has none.
* `Member.encode` — its octets.
* `Archive.fault?` — what an archive cannot hold.
-/

namespace Provision

/-- What an archive gives to entries that say nothing. -/
structure ArchiveOptions where
  /-- The modification time of entries that declare none. -/
  mtime : Nat
  deriving DecidableEq, Repr

def Entry.defaultMode : Entry → Mode
  | .directory => ⟨0o755⟩
  | .symlink _ => ⟨0o777⟩
  | _ => ⟨0o644⟩

def EntrySpec.effectiveMode (spec : EntrySpec) : Mode :=
  spec.permissions.mode.getD spec.entry.defaultMode

/-- The content of a file; nothing for other entries. -/
def Entry.content : Entry → Octets
  | .file content => content
  | _ => []

/-! ## Faults -/

/-- Why a node cannot stand in an archive. -/
inductive EncodingFault where
  | attributeNameTooLong (length : Nat)
  | attributeValueTooLong (name : String) (length : Nat)
  | deviceNumbersTooLarge (major minor : Nat)
  deriving DecidableEq, Repr

namespace Archive

/-- The largest number in a field of eight octets. -/
def largestShort : Nat := 0o7777777

/-- The largest number in a field of twelve octets. -/
def largestLong : Nat := 0o77777777777

def longestAttributeName : Nat := 255

def longestAttributeValue : Nat := 65536

end Archive

def EncodingFault.message : EncodingFault → String
  | .attributeNameTooLong length =>
    s!"extended attribute name is {length} bytes, limit is {Archive.longestAttributeName}"
  | .attributeValueTooLong name length =>
    s!"extended attribute '{name}' is {length} bytes, limit is {Archive.longestAttributeValue}"
  | .deviceNumbersTooLarge major minor =>
    s!"device numbers {major}:{minor} exceed {Text.octal Archive.largestShort}"

namespace Archive

def attributeFault? (name : String) (value : Octets) : Option EncodingFault :=
  if longestAttributeName < (utf8 name).length then
    some (.attributeNameTooLong (utf8 name).length)
  else if longestAttributeValue < value.length then
    some (.attributeValueTooLong name value.length)
  else none

def entryFault? : Entry → Option EncodingFault
  | .device _ major minor =>
    if largestShort < major ∨ largestShort < minor then some (.deviceNumbersTooLarge major minor)
    else none
  | _ => none

/-- The first fault of a node: its attributes in order, then the entry. -/
def fault? (node : Node) : Option EncodingFault :=
  (node.xattrs.entries.findSome? fun (name, value) => attributeFault? name value).or
    (node.state.entry?.bind fun spec => entryFault? spec.entry)

/-- Whether a node is left to whoever unpacks the archive: an undeclared root about which nothing is
    said. -/
def skips (node : Node) : Bool :=
  node.path.isRoot && node.xattrs.isEmpty && node.state = .implicit .none

end Archive

/-! ## Fields and records -/

namespace Member

/-- A number as its header field and its records: too large a number leaves the field at zero. -/
def fitted (key : String) (n largest : Nat) : Nat × List (String × Octets) :=
  if largest < n then (0, [(key, utf8 (toString n))]) else (n, [])

/-- A text as its header field and its records: too long a text leaves the field empty. -/
def fittedText (key : String) (s : Octets) (width : Nat) : Octets × List (String × Octets) :=
  if width < s.length then ([], [(key, s)]) else (s, [])

/-- The first separator at which a name can be split so that both parts fit their fields; `i` octets
    of it are passed already. -/
def splitAt? (front : Octets) : Octets → Option (Octets × Octets)
  | [] => none
  | b :: rest =>
    if 155 < front.length then none
    else if b = 0x2F ∧ rest ≠ [] ∧ rest.length ≤ 100 then some (front, rest)
    else splitAt? (front ++ [b]) rest

/-- A name as the two fields for it, where it fits. -/
def split? (name : Octets) : Option (Octets × Octets) :=
  if name.length ≤ 100 then some ([], name) else splitAt? [] name

/-- The name of a member: relative, and with a separator behind for a directory. -/
def nameOf (path : TargetPath) (entry : Entry) : String :=
  match entry with
  | .directory => path.relative ++ "/"
  | _ => path.relative

/-- The type of the member of an entry. -/
def typeOf : Entry → MemberType
  | .directory => .directory
  | .file _ => .regular
  | .symlink _ => .symlink
  | .fifo => .fifo
  | .device .char .. => .charDevice
  | .device .block .. => .blockDevice

/-- The target of a link; nothing for other entries. -/
def linkOf : Entry → Octets
  | .symlink target => utf8 target
  | _ => []

def deviceOf : Entry → Option (Nat × Nat)
  | .device _ major minor => some (major, minor)
  | _ => none

/-- The id of a principal, and zero where it is unset. -/
def idOf (p : Option Principal) : Nat := (p.bind (·.id)).getD 0

/-- The name of a principal, and nothing where it is unset. -/
def principalName (p : Option Principal) : Octets := utf8 ((p.bind (·.name)).getD "")

end Member

structure Member where
  path : TargetPath
  /-- The name under which it is unpacked. -/
  name : String
  header : Header
  records : ExtendedRecords
  content : Octets

namespace Member

/-- The member of a node that creates an entry. -/
def ofNode (options : ArchiveOptions) (node : Node) (spec : EntrySpec) : Member :=
  let name := nameOf node.path spec.entry
  let content := spec.entry.content
  let link := linkOf spec.entry
  let owner := spec.permissions.owner
  let group := spec.permissions.group
  let (mtime, mtimeRecords) := fitted "mtime" (spec.mtime.getD options.mtime) Archive.largestLong
  let (size, sizeRecords) := fitted "size" content.length Archive.largestLong
  let (uid, uidRecords) := fitted "uid" (idOf owner) Archive.largestShort
  let (gid, gidRecords) := fitted "gid" (idOf group) Archive.largestShort
  let (userName, userRecords) := fittedText "uname" (principalName owner) 32
  let (groupName, groupRecords) := fittedText "gname" (principalName group) 32
  let (directory, shortName, nameRecords) := match split? (utf8 name) with
    | some (directory, shortName) => (directory, shortName, [])
    | none => ([], utf8 name, [("path", utf8 name)])
  let linkRecords := if 100 < link.length then [("linkpath", link)] else []
  let atimeRecords := spec.atime.toList.map fun atime => ("atime", utf8 (toString atime))
  let xattrRecords := node.xattrs.entries.map fun (name, value) =>
    (ExtendedRecords.attributeKey name, value)
  { path := node.path, name, content
    header :=
      { memberType := typeOf spec.entry
        directory, name := shortName
        mode := spec.effectiveMode.bits
        uid, gid, size, mtime
        linkName := link
        userName, groupName
        device := deviceOf spec.entry }
    records := SortedMap.ofList (xattrRecords ++ mtimeRecords ++ atimeRecords ++ sizeRecords
      ++ uidRecords ++ gidRecords ++ nameRecords ++ linkRecords ++ userRecords ++ groupRecords) }

/-! ## Octets -/

/-- The header block before the records of a member. -/
def recordsHeader (options : ArchiveOptions) (node : Node) (spec : EntrySpec) (size : Nat) :
    Header where
  memberType := .extended
  directory := []
  name := utf8 ("PaxHeaders/" ++ if node.path.isRoot then "." else node.path.fileName)
  mode := 0o644
  uid := 0
  gid := 0
  size := size
  mtime := min (spec.mtime.getD options.mtime) Archive.largestLong
  linkName := []
  userName := []
  groupName := []
  device := none

/-- A header block and what it announces, up to the end of a block. -/
def blocks (header : Header) (content : Octets) : List Octets :=
  [header.encode, content, blockFill content.length]

/-- The pieces of a member, in the order in which they are written. -/
def pieces (options : ArchiveOptions) (node : Node) (spec : EntrySpec) : List Octets :=
  let member := ofNode options node spec
  let records := member.records.encode
  (if member.records.isEmpty then []
    else blocks (recordsHeader options node spec records.length) records)
    ++ blocks member.header member.content

end Member

namespace Archive

/-- What ends an archive: two blocks of zeros. -/
def closing : Octets := List.replicate 1024 0

end Archive

end Provision
