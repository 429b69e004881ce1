import Provision.Octets
import Provision.Text.Digits

/-! # Header blocks

One block of 512 octets in the ustar layout: text fields filled up with NULs, numbers in octal digits
with a NUL behind, and a checksum over the whole block.

* `Header` — the fields; `Header.encode` — the block.
* `blockFill` — what brings so many octets to whole blocks.
-/

namespace Provision

open Text

/-- What a member of an archive is. -/
inductive MemberType where
  | regular
  | symlink
  | charDevice
  | blockDevice
  | directory
  | fifo
  | extended
  deriving DecidableEq, Repr

def MemberType.flag : MemberType → Char
  | .regular => '0'
  | .symlink => '2'
  | .charDevice => '3'
  | .blockDevice => '4'
  | .directory => '5'
  | .fifo => '6'
  | .extended => 'x'

structure Header where
  memberType : MemberType
  /-- The leading part of a name that was split at a separator. -/
  directory : Octets
  name : Octets
  mode : Nat
  uid : Nat
  gid : Nat
  size : Nat
  mtime : Nat
  linkName : Octets
  userName : Octets
  groupName : Octets
  device : Option (Nat × Nat)
  deriving DecidableEq, Repr

namespace Header

/-- A text field: cut at its width, filled up with NULs. -/
def textField (width : Nat) (s : Octets) : Octets :=
  s.take width ++ List.replicate (width - s.length) 0

/-- A number field: octal digits, zeros in front, a NUL behind. -/
def numberField (width n : Nat) : Octets :=
  let digits := (utf8 (octal n)).reverse.take (width - 1)
  List.replicate (width - 1 - digits.length) 0x30 ++ digits.reverse ++ [0]

/-- Device numbers stand only in the blocks of devices. -/
def deviceField (n : Option Nat) : Octets :=
  match n with
  | some n => numberField 8 n
  | none => List.replicate 8 0

/-- The fields before the checksum. -/
def front (h : Header) : Octets :=
  textField 100 h.name ++ numberField 8 h.mode ++ numberField 8 h.uid ++ numberField 8 h.gid
    ++ numberField 12 h.size ++ numberField 12 h.mtime

/-- The fields after the checksum. -/
def back (h : Header) : Octets :=
  utf8 h.memberType.flag.toString ++ textField 100 h.linkName ++ utf8 "ustar\x0000"
    ++ textField 32 h.userName ++ textField 32 h.groupName
    ++ deviceField (h.device.map (·.1)) ++ deviceField (h.device.map (·.2))
    ++ textField 155 h.directory ++ List.replicate 12 0

/-- The sum of all octets of the block, with blanks in the place of the checksum. -/
def checksum (h : Header) : Nat :=
  (h.front ++ List.replicate 8 0x20 ++ h.back).foldl (fun total (octet : UInt8) => total + octet.toNat) 0

def encode (h : Header) : Octets :=
  h.front ++ numberField 8 h.checksum ++ h.back

end Header

/-- The zeros that follow so many octets up to the end of a block. -/
def blockFill (length : Nat) : Octets :=
  List.replicate ((512 - length % 512) % 512) 0

end Provision
