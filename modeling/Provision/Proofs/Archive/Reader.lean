import Provision.Archive.Member

/-! # Reading an archive

What an unpacker makes of the octets of an archive, by the layout of the format alone.

* `header?` — a header block, its checksum verified.
* `records?` — extended header records, zero-length values included.
* `member?` — a member by its header block and the records that were sent ahead of it.
* `members?` — all members, up to the two blocks of zeros that end an archive.
-/

namespace Provision.ArchiveReader

/-! ## Header blocks -/

/-- The widths of the fields of a header block. -/
def widths : List Nat := [100, 8, 8, 8, 12, 12, 8, 1, 100, 8, 32, 32, 8, 8, 155, 12]

/-- Octets cut into pieces of given widths. -/
def cut : List Nat → Octets → List Octets
  | [], _ => []
  | width :: widths, octets => octets.take width :: cut widths (octets.drop width)

/-- The text in a field: up to a NUL, or to the end of the field. -/
def textIn (field : Octets) : Octets := field.takeWhile (· ≠ 0)

/-- The number that digits write in a base, if there are any and nothing else. -/
def number? (base : Nat) (digits : Octets) : Option Nat :=
  if digits ≠ [] ∧ digits.all fun b => 0x30 ≤ b.toNat ∧ b.toNat < 0x30 + base then
    some (digits.foldl (fun n b => base * n + (b.toNat - 0x30)) 0)
  else none

def octalIn? (field : Octets) : Option Nat := number? 8 (textIn field)

/-- The member type that a letter stands for. -/
def typeOf? : Octets → Option MemberType
  | [0x30] => some .regular
  | [0x32] => some .symlink
  | [0x33] => some .charDevice
  | [0x34] => some .blockDevice
  | [0x35] => some .directory
  | [0x36] => some .fifo
  | [0x78] => some .extended
  | _ => none

/-- The numbers of a device, which only devices have. -/
def device? (memberType : MemberType) (major minor : Octets) : Option (Option (Nat × Nat)) :=
  match memberType with
  | .charDevice | .blockDevice =>
    match octalIn? major, octalIn? minor with
    | some major, some minor => some (some (major, minor))
    | _, _ => none
  | _ => some none

def sum (octets : Octets) : Nat := (octets.map UInt8.toNat).foldr (· + ·) 0

/-- The header in a block, if the checksum is the sum of all octets with blanks in its own place. -/
def header? (block : Octets) : Option Header :=
  match cut widths block with
  | [name, mode, uid, gid, size, mtime, checksum, flag, linkName, magic, userName, groupName, major,
      minor, directory, _] =>
    if octalIn? checksum = some (sum (block.take 148 ++ List.replicate 8 0x20 ++ block.drop 156))
        ∧ magic = utf8 "ustar\x0000" then do
      let memberType ← typeOf? flag
      let mode ← octalIn? mode
      let uid ← octalIn? uid
      let gid ← octalIn? gid
      let size ← octalIn? size
      let mtime ← octalIn? mtime
      let device ← device? memberType major minor
      some
        { memberType, mode, uid, gid, size, mtime, device
          directory := textIn directory
          name := textIn name
          linkName := textIn linkName
          userName := textIn userName
          groupName := textIn groupName }
    else none
  | _ => none

/-! ## Records -/

abbrev Records := List (Octets × Octets)

/-- The record in front of some octets, and the others: its length in decimal digits, a blank, the key, an
    equals sign, the value, a newline. -/
def record? (octets : Octets) : Option ((Octets × Octets) × Octets) :=
  let digits := octets.takeWhile (· ≠ 0x20)
  match number? 10 digits with
  | none => none
  | some length =>
    let body := (octets.take length).drop (digits.length + 1)
    let key := body.takeWhile (· ≠ 0x3D)
    if length ≤ octets.length ∧ key ≠ body ∧ body.getLast? = some 0x0A then
      some ((key, (body.drop (key.length + 1)).dropLast), octets.drop length)
    else none

def records? (octets : Octets) : Option Records :=
  if octets = [] then some []
  else match record? octets with
    | none => none
    | some (record, rest) =>
      if _h : rest.length < octets.length then (records? rest).map (record :: ·) else none
termination_by octets.length

/-- The value under a key; the last, if there are several. -/
def value? (records : Records) (key : String) : Option Octets :=
  (records.filter fun record => record.1 = utf8 key).getLast?.map (·.2)

/-- A text that a record may hold in the place of a field. -/
def textFrom (records : Records) (key : String) (field : Octets) : Octets :=
  (value? records key).getD field

/-- A number that a record may hold in the place of a field. -/
def numberFrom? (records : Records) (key : String) (field : Nat) : Option Nat :=
  match value? records key with
  | some digits => number? 10 digits
  | none => some field

/-- The attribute in a record, by its name. -/
def attribute? (record : Octets × Octets) : Option (Octets × Octets) :=
  let marker := utf8 "SCHILY.xattr."
  if marker.isPrefixOf record.1 then some (record.1.drop marker.length, record.2) else none

/-! ## Members -/

/-- A member as it is unpacked. -/
structure Found where
  name : Octets
  memberType : MemberType
  mode : Nat
  uid : Nat
  gid : Nat
  userName : Octets
  groupName : Octets
  mtime : Nat
  atime : Option Nat
  linkName : Octets
  device : Option (Nat × Nat)
  xattrs : List (Octets × Octets)
  content : Octets
  deriving DecidableEq

/-- The name in a header: the two parts of one that was split, joined again. -/
def joined (header : Header) : Octets :=
  if header.directory = [] then header.name else header.directory ++ 0x2F :: header.name

def atime? (records : Records) : Option (Option Nat) :=
  match value? records "atime" with
  | some digits => (number? 10 digits).map some
  | none => some none

/-- The member of a header, with the records that were sent ahead. -/
def member? (records : Records) (header : Header) (content : Octets) : Option Found := do
  let uid ← numberFrom? records "uid" header.uid
  let gid ← numberFrom? records "gid" header.gid
  let mtime ← numberFrom? records "mtime" header.mtime
  let atime ← atime? records
  some
    { name := textFrom records "path" (joined header)
      memberType := header.memberType
      mode := header.mode
      uid, gid, mtime, atime
      userName := textFrom records "uname" header.userName
      groupName := textFrom records "gname" header.groupName
      linkName := textFrom records "linkpath" header.linkName
      device := header.device
      xattrs := records.filterMap attribute?
      content }

/-! ## Archives -/

/-- How many octets follow a header. Records never hold for other records. -/
def size? (records : Records) (header : Header) : Option Nat :=
  if header.memberType = .extended then some header.size
  else numberFrom? records "size" header.size

/-- So many octets in front of some others, which go on at the next block. -/
def body? (size : Nat) (octets : Octets) : Option (Octets × Octets) :=
  let whole := size + (512 - size % 512) % 512
  if whole ≤ octets.length then some (octets.take size, octets.drop whole) else none

/-- The header in front of some octets, what it announces, and what follows. -/
def announced? (records : Records) (octets : Octets) : Option (Header × Octets × Octets) := do
  let (block, rest) ← body? 512 octets
  let header ← header? block
  let size ← size? records header
  let (body, rest) ← body? size rest
  some (header, body, rest)

theorem length_le_of_body? {size : Nat} {octets body rest : Octets}
    (h : body? size octets = some (body, rest)) : rest.length + size ≤ octets.length := by
  simp only [body?] at h
  split at h
  · cases h
    rw [List.length_drop]
    omega
  · cases h

theorem length_lt_of_announced? {records : Records} {octets body rest : Octets} {header : Header}
    (h : announced? records octets = some (header, body, rest)) : rest.length < octets.length := by
  simp only [announced?, Option.bind_eq_bind, Option.bind_eq_some_iff] at h
  obtain ⟨⟨block, after⟩, hblock, found, -, size, -, ⟨announced, next⟩, hbody, h⟩ := h
  cases h
  have hafter : after.length + 512 ≤ octets.length := length_le_of_body? hblock
  have hnext : next.length + size ≤ after.length := length_le_of_body? hbody
  show next.length < octets.length
  omega

/-- The members in some octets, and where they stop: at two blocks of zeros. Records that were sent ahead
    hold for the next member. -/
def members? (records : Records) (octets : Octets) : Option (List Found × Octets) :=
  if octets.take 1024 = List.replicate 1024 0 then
    if records = [] then some ([], octets) else none
  else
    match _h : announced? records octets with
    | none => none
    | some (header, body, rest) =>
      if header.memberType = .extended then
        match records? body with
        | none => none
        | some records => members? records rest
      else
        match member? records header body, members? [] rest with
        | some member, some (members, stop) => some (member :: members, stop)
        | _, _ => none
termination_by octets.length
decreasing_by all_goals exact length_lt_of_announced? _h

end Provision.ArchiveReader
