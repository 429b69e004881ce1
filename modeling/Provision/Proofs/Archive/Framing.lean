import Mathlib.Logic.Function.Iterate
import Mathlib.Order.Bounds.Defs
import Provision.Proofs.Archive.Record

/-! # Framing of records

Each record gives its own length, so whatever its value holds, the next one is found. What is read back from the
encoding of some records are these records.

* `Record.exists_iterate_eq_settle` — the length is found in finitely many rounds of counting.
* `Record.IsFrame` — the octets of one record, with the least length that they can give.
* `ExtendedRecords.IsFramed`, `ExtendedRecords.encode_isFramed` — the statement.
-/

namespace Provision

open ArchiveReader

/-! ## One record -/

namespace Record

/-- The length once more, with the digits of the one so far. -/
def recount (base length : Nat) : Nat := base + digits length

theorem exists_iterate_eq_settle {base length : Nat} (h : length ≤ base + digits length) :
    ∃ rounds, (recount base)^[rounds] length = settle base length h := by
  fun_induction settle base length h with
  | case1 length h heq => exact ⟨0, rfl⟩
  | case2 length h hne ih =>
    obtain ⟨rounds, hrounds⟩ := ih
    exact ⟨rounds + 1, (Function.iterate_succ_apply ..).trans hrounds⟩

/-- What the octets of a record are. -/
structure IsFrame (key : String) (value octets : Octets) (n : Nat) : Prop where
  octets_eq : octets = framed n key value
  /-- The number is the length of the whole, and no smaller one is. -/
  isLeast : IsLeast {m | (framed m key value).length = m} n
  /-- Counting the digits again and again comes to it. -/
  settles : ∃ rounds, (recount ((utf8 key).length + value.length + 3))^[rounds]
    ((utf8 key).length + value.length + 3) = n

theorem exists_isFrame_encode (key : String) (value : Octets) : ∃ n, IsFrame key value (encode key value) n := by
  refine ⟨_, encode_eq_framed key value, ⟨?_, fun m hm => length_le ?_⟩, ?_⟩
  · exact (length_framed ..).trans (length_eq _).symm
  · exact (length_framed ..).symm.trans hm
  · -- The first round adds the digits of what the record takes without its length.
    obtain ⟨rounds, hrounds⟩ := exists_iterate_eq_settle
      (Nat.add_le_add_left (digits_mono (Nat.le_add_right ((utf8 key).length + value.length + 3) _)) _)
    exact ⟨rounds + 1, (Function.iterate_succ_apply ..).trans hrounds⟩

end Record

/-! ## All records -/

namespace ExtendedRecords

/-- What the encoding of some records is, and how it is read. -/
structure IsFramed (records : ExtendedRecords) (octets : Octets) : Prop where
  /-- There is one record behind the other, each with its length. -/
  parts : ∃ parts, octets = parts.flatten ∧
    List.Forall₂ (fun entry part => ∃ n, Record.IsFrame entry.1 entry.2 part n) records.entries parts
  /-- The keys ascend. -/
  ascending : records.keys.Pairwise fun a b => byteOrder a b = .lt
  /-- The records are read back, and nothing is left. -/
  decoded : records? octets = some (records.entries.map fun (key, value) => (utf8 key, value))
  /-- No other records have this encoding. -/
  unique : ∀ other : ExtendedRecords, (∀ key ∈ other.keys, '=' ∉ key.toList) → other.encode = octets → other = records

variable {records : ExtendedRecords}

theorem records?_encode_self (h : ∀ key ∈ records.keys, '=' ∉ key.toList) :
    records? records.encode = some (records.entries.map fun (key, value) => (utf8 key, value)) :=
  records?_encode fun entry hentry =>
    octet_not_mem_utf8 (by decide) (h entry.1 (List.mem_map_of_mem hentry))

theorem encode_inj {other : ExtendedRecords} (h : ∀ key ∈ records.keys, '=' ∉ key.toList)
    (hother : ∀ key ∈ other.keys, '=' ∉ key.toList) (heq : other.encode = records.encode) : other = records := by
  -- One encoding is read in one way.
  have hdecoded := records?_encode_self hother
  rw [heq, records?_encode_self h] at hdecoded
  have hentries : records.entries = other.entries := by
    refine List.map_injective_iff.2 ?_ (Option.some.inj hdecoded)
    rintro ⟨key, value⟩ ⟨key', value'⟩ hpair
    obtain ⟨hkey, rfl⟩ := Prod.mk.inj hpair
    rw [utf8_injective hkey]
  cases records
  cases other
  congr
  exact hentries.symm

/-- Records whose keys hold no equals sign are framed, whatever their values hold. -/
theorem encode_isFramed (h : ∀ key ∈ records.keys, '=' ∉ key.toList) : records.IsFramed records.encode := by
  refine ⟨⟨records.entries.map fun (key, value) => Record.encode key value, rfl, ?_⟩, records.keys_pairwise,
    records?_encode_self h, fun other hother heq => encode_inj h hother heq⟩
  rw [List.forall₂_map_right_iff, List.forall₂_same]
  exact fun entry _ => Record.exists_isFrame_encode entry.1 entry.2

/-- A value that looks like a record, one that ends just where the length gets another digit, and an empty one with two
    lengths to choose from. -/
def nested : ExtendedRecords :=
  ⟨[("comment", utf8 "16 path=/shadow\n"), ("k", List.replicate 94 0x76), ("mtime", [])], by decide⟩

/-- They are read back as they are: the first value is whole, and the last length is the smaller one. -/
theorem nested_isFramed : (∀ key ∈ nested.keys, '=' ∉ key.toList) ∧ nested.IsFramed nested.encode ∧
    nested.encode = utf8 "28 comment=16 path=/shadow\n\n101 k=" ++ List.replicate 94 0x76 ++ utf8 "\n9 mtime=\n" := by
  have hkeys : ∀ key ∈ nested.keys, '=' ∉ key.toList := by decide
  exact ⟨hkeys, encode_isFramed hkeys, by decide +kernel⟩

end ExtendedRecords

end Provision
