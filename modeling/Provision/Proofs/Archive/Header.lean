import Mathlib.Algebra.Group.Nat.Defs
import Provision.Proofs.Archive.Reader
import Provision.Proofs.Octets

/-! # Header blocks are read back

* `number?_toDigits`, `octalIn?_numberField`, `textIn_textField` — fields.
* `Header.IsEncodable` — what the fields of a header have room for.
* `header?_encode` — a header read from its block: only its name and the target of a link are cut.
-/

namespace Provision

open ArchiveReader

/-! ## Numbers -/

theorem foldl_octets (base : Nat) {cs : List Char} (h : ∀ c ∈ cs, c.toNat < 0x80) (init : Nat) :
    (cs.map octet).foldl (fun n b => base * n + (b.toNat - 0x30)) init =
      Nat.ofDigitChars base cs init := by
  induction cs generalizing init with
  | nil => simp
  | cons c cs ih =>
    rw [List.map_cons, List.foldl_cons, Nat.ofDigitChars_cons, toNat_octet (h c List.mem_cons_self),
      ih fun c hc => h c (List.mem_cons_of_mem _ hc)]
    rfl

/-- Zeros in front do not change the number that digits write. -/
theorem number?_toDigits {base : Nat} (hbase : 1 < base) (hten : base ≤ 10) (zeros n : Nat) :
    number? base (List.replicate zeros 0x30 ++ utf8 (String.ofList (Nat.toDigits base n))) =
      some n := by
  have hzeros : List.replicate zeros 0x30 = (List.replicate zeros '0').map octet := by
    rw [List.map_replicate]
    rfl
  -- The zeros in front are digits as well, so that one fact about digits covers all octets.
  have hdigit : ∀ c ∈ List.replicate zeros '0' ++ Nat.toDigits base n, ∃ d < base, c = d.digitChar := by
    intro c hc
    rcases List.mem_append.1 hc with hc | hc
    · exact ⟨0, by omega, List.eq_of_mem_replicate hc⟩
    · exact exists_of_mem_toDigits hbase hc
  have hascii : ∀ c ∈ List.replicate zeros '0' ++ Nat.toDigits base n, c.toNat < 0x80 := by
    intro c hc
    obtain ⟨d, hd, rfl⟩ := hdigit c hc
    rw [Nat.toNat_digitChar_of_lt_ten (by omega)]
    omega
  rw [octets_toDigits hbase hten, hzeros, ← List.map_append, number?, foldl_octets base hascii,
    Nat.ofDigitChars_append, Nat.ofDigitChars_replicate_zero, Nat.mul_zero,
    Nat.ofDigitChars_toDigits hbase hten, if_pos]
  refine ⟨by simp, List.all_eq_true.2 fun b hb => decide_eq_true ?_⟩
  obtain ⟨c, hc, rfl⟩ := List.mem_map.1 hb
  obtain ⟨d, hd, rfl⟩ := hdigit c hc
  rw [toNat_octet_digit (by omega)]
  omega

theorem number?_toString (n : Nat) : number? 10 (utf8 (toString n)) = some n := by
  have := number?_toDigits (show 1 < 10 by decide) (by decide) 0 n
  rwa [Nat.toString_eq_ofList_toDigits]

/-- No octet of a number is below the digit zero: it is neither a NUL nor a blank. -/
theorem le_toNat_of_mem_digits {base : Nat} (hbase : 1 < base) (hten : base ≤ 10) {zeros n : Nat}
    {b : UInt8}
    (h : b ∈ List.replicate zeros 0x30 ++ utf8 (String.ofList (Nat.toDigits base n))) :
    0x30 ≤ b.toNat := by
  rw [octets_toDigits hbase hten] at h
  rcases List.mem_append.1 h with h | h
  · rw [List.eq_of_mem_replicate h]
    decide
  · obtain ⟨c, hc, rfl⟩ := List.mem_map.1 h
    obtain ⟨d, hd, rfl⟩ := exists_of_mem_toDigits hbase hc
    rw [toNat_octet_digit (by omega)]
    omega

/-! ## Fields -/

/-- What comes before the first octet of a kind, if there is one. -/
theorem takeWhile_ne_append {a : UInt8} {s rest : Octets} (h : a ∉ s)
    (hrest : ∀ b ∈ rest.head?, b = a) : (s ++ rest).takeWhile (· ≠ a) = s := by
  have hne : ∀ b ∈ s, decide (b ≠ a) = true := by
    intro b hb
    apply decide_eq_true
    rintro rfl
    exact h hb
  rw [List.takeWhile_append_of_pos hne]
  cases rest with
  | nil => simp
  | cons b rest => simp [hrest b rfl]

theorem textIn_append {s : Octets} (h : 0 ∉ s) (count : Nat) :
    textIn (s ++ List.replicate count 0) = s :=
  takeWhile_ne_append h (by cases count <;> simp [List.replicate_succ])

theorem textIn_textField {s : Octets} (h : 0 ∉ s) (width : Nat) :
    textIn (Header.textField width s) = s.take width :=
  textIn_append (fun hmem => h (List.mem_of_mem_take hmem)) _

theorem length_textField (width : Nat) (s : Octets) : (Header.textField width s).length = width := by
  simp only [Header.textField, List.length_append, List.length_take, List.length_replicate]
  omega

theorem length_numberField {width : Nat} (h : 0 < width) (n : Nat) :
    (Header.numberField width n).length = width := by
  simp only [Header.numberField, List.length_append, List.length_take, List.length_replicate,
    List.length_reverse, List.length_singleton]
  omega

theorem length_deviceField (n : Option Nat) : (Header.deviceField n).length = 8 := by
  cases n with
  | none => exact List.length_replicate
  | some n => exact length_numberField (by decide) n

theorem octalIn?_numberField {width n : Nat} (hwidth : 1 < width) (h : n < 8 ^ (width - 1)) :
    octalIn? (Header.numberField width n) = some n := by
  have hlength : (utf8 (Text.octal n)).reverse.length ≤ width - 1 := by
    rw [List.length_reverse, Text.octal, octets_toDigits (by decide) (by decide), List.length_map]
    exact (Nat.length_toDigits_le_iff (by decide) (by omega)).2 h
  -- As the digits fit, the field cuts none of them off.
  rw [octalIn?, Header.numberField]
  simp only [List.take_of_length_le hlength, List.reverse_reverse]
  rw [Text.octal]
  have hzero : 0 ∉ List.replicate (width - 1 - (utf8 (String.ofList (Nat.toDigits 8 n))).reverse.length)
      0x30 ++ utf8 (String.ofList (Nat.toDigits 8 n)) := fun h =>
    absurd (le_toNat_of_mem_digits (by decide) (by decide) h) (by decide)
  have htext := textIn_append hzero 1
  rw [List.replicate_one] at htext
  rw [htext, number?_toDigits (by decide) (by decide)]

/-! ## Blocks -/

theorem cut_flatten (fields : List Octets) : cut (fields.map List.length) fields.flatten = fields := by
  induction fields with
  | nil => rfl
  | cons field fields ih =>
    rw [List.map_cons, List.flatten_cons, cut, List.take_left, List.drop_left, ih]

theorem sum_eq_foldl (octets : Octets) :
    sum octets = octets.foldl (fun total (octet : UInt8) => total + octet.toNat) 0 := by
  rw [sum, ← List.sum_eq_foldr, List.sum_eq_foldl, List.foldl_map]

theorem sum_le (octets : Octets) : sum octets ≤ 255 * octets.length := by
  induction octets with
  | nil => simp [sum]
  | cons b octets ih =>
    have := b.toNat_lt
    simp only [sum, List.map_cons, List.foldr_cons, List.length_cons] at *
    omega

theorem typeOf?_flag (t : MemberType) : typeOf? (utf8 t.flag.toString) = some t := by
  cases t <;> rfl

namespace Header

/-- The fields of a block in order. -/
def fields (h : Header) : List Octets :=
  [textField 100 h.name, numberField 8 h.mode, numberField 8 h.uid, numberField 8 h.gid,
    numberField 12 h.size, numberField 12 h.mtime, numberField 8 h.checksum,
    utf8 h.memberType.flag.toString, textField 100 h.linkName, utf8 "ustar\x0000",
    textField 32 h.userName, textField 32 h.groupName, deviceField (h.device.map (·.1)),
    deviceField (h.device.map (·.2)), textField 155 h.directory, List.replicate 12 0]

theorem encode_eq (h : Header) : h.encode = h.fields.flatten := by
  simp [encode, front, back, fields]

theorem length_flag (t : MemberType) : (utf8 t.flag.toString).length = 1 := by
  cases t <;> rfl

theorem widths_eq (h : Header) : h.fields.map List.length = widths := by
  simp only [fields, List.map_cons, List.map_nil, length_textField, length_deviceField, length_flag,
    length_numberField (show 0 < 8 by decide), length_numberField (show 0 < 12 by decide),
    List.length_replicate]
  rfl

theorem length_encode (h : Header) : h.encode.length = 512 := by
  rw [encode_eq, List.length_flatten, widths_eq]
  rfl

theorem length_front (h : Header) : h.front.length = 148 := by
  simp only [front, List.length_append, length_textField,
    length_numberField (show 0 < 8 by decide), length_numberField (show 0 < 12 by decide)]

theorem length_back (h : Header) : h.back.length = 356 := by
  have := h.length_encode
  simp only [encode, List.length_append, length_front, length_numberField (show 0 < 8 by decide)] at this
  omega

theorem checksum_lt (h : Header) : h.checksum < 8 ^ 7 := by
  have hle := sum_le (h.front ++ List.replicate 8 0x20 ++ h.back)
  rw [sum_eq_foldl] at hle
  simp only [List.length_append, length_front, length_back, List.length_replicate] at hle
  exact Nat.lt_of_le_of_lt hle (by decide)

/-- Whether the fields have room for a header. Its name and the target of a link may be longer than their
    fields. -/
structure IsEncodable (h : Header) : Prop where
  mode : h.mode ≤ Archive.largestShort
  uid : h.uid ≤ Archive.largestShort
  gid : h.gid ≤ Archive.largestShort
  size : h.size ≤ Archive.largestLong
  mtime : h.mtime ≤ Archive.largestLong
  name : 0 ∉ h.name
  linkName : 0 ∉ h.linkName
  userName : 0 ∉ h.userName ∧ h.userName.length ≤ 32
  groupName : 0 ∉ h.groupName ∧ h.groupName.length ≤ 32
  directory : 0 ∉ h.directory ∧ h.directory.length ≤ 155
  /-- Devices have numbers, and nothing else has. -/
  device : (h.memberType = .charDevice ∨ h.memberType = .blockDevice) ↔ h.device.isSome
  numbers : ∀ {major minor}, h.device = some (major, minor) →
    major ≤ Archive.largestShort ∧ minor ≤ Archive.largestShort

/-- A header as far as its fields hold it. -/
def shortened (h : Header) : Header :=
  { h with name := h.name.take 100, linkName := h.linkName.take 100 }

theorem octalIn?_short {n : Nat} (h : n ≤ Archive.largestShort) :
    octalIn? (numberField 8 n) = some n :=
  octalIn?_numberField (by decide) (Nat.lt_of_le_of_lt h (by decide))

theorem octalIn?_long {n : Nat} (h : n ≤ Archive.largestLong) :
    octalIn? (numberField 12 n) = some n :=
  octalIn?_numberField (by decide) (Nat.lt_of_le_of_lt h (by decide))

theorem device?_deviceField {h : Header} (hencodable : h.IsEncodable) :
    device? h.memberType (deviceField (h.device.map (·.1))) (deviceField (h.device.map (·.2))) =
      some h.device := by
  have hdevice := hencodable.device
  unfold device?
  cases hnumbers : h.device with
  | none =>
    rw [hnumbers] at hdevice
    cases htype : h.memberType <;> simp [htype] at hdevice ⊢
  | some numbers =>
    obtain ⟨major, minor⟩ := numbers
    obtain ⟨hmajor, hminor⟩ := hencodable.numbers hnumbers
    rw [hnumbers] at hdevice
    simp only [Option.map_some, deviceField, octalIn?_short hmajor, octalIn?_short hminor]
    rcases hdevice.2 rfl with htype | htype <;> rw [htype]

/-- The checksum is the sum that a reader forms. -/
theorem sum_encode (h : Header) :
    sum (h.encode.take 148 ++ List.replicate 8 0x20 ++ h.encode.drop 156) = h.checksum := by
  have hfront : h.encode.take 148 = h.front := by
    rw [encode, List.append_assoc, ← h.length_front, List.take_left]
  have hback : h.encode.drop 156 = h.back := by
    have hlength : (h.front ++ numberField 8 h.checksum).length = 156 := by
      rw [List.length_append, length_front, length_numberField (by decide)]
    rw [encode, ← hlength, List.drop_left]
  rw [hfront, hback, sum_eq_foldl, checksum]

end Header

/-- A header is read back from its block, the two long texts as far as their fields hold them. -/
theorem header?_encode {h : Header} (hencodable : h.IsEncodable) :
    header? h.encode = some h.shortened := by
  have hcut : cut widths h.encode = h.fields := by
    rw [Header.encode_eq, ← h.widths_eq, cut_flatten]
  have hchecksum : octalIn? (Header.numberField 8 h.checksum) = some h.checksum :=
    octalIn?_numberField (by decide) h.checksum_lt
  have hdevice := Header.device?_deviceField hencodable
  rw [header?, hcut, h.sum_encode]
  simp only [Header.fields, hchecksum, true_and, if_true, typeOf?_flag,
    Header.octalIn?_short hencodable.mode, Header.octalIn?_short hencodable.uid,
    Header.octalIn?_short hencodable.gid, Header.octalIn?_long hencodable.size,
    Header.octalIn?_long hencodable.mtime, hdevice, Option.bind_eq_bind, Option.bind_some,
    textIn_textField hencodable.name, textIn_textField hencodable.linkName,
    textIn_textField hencodable.userName.1, textIn_textField hencodable.groupName.1,
    textIn_textField hencodable.directory.1, List.take_of_length_le hencodable.userName.2,
    List.take_of_length_le hencodable.groupName.2, List.take_of_length_le hencodable.directory.2,
    Header.shortened]

end Provision
