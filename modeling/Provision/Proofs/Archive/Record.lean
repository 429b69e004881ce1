import Provision.Proofs.Archive.Header
import Provision.Proofs.SortedMap

/-! # Records are read back

* `Record.length_eq` — the length of a record counts its own digits; `Record.length_le` — it is the least number that does.
* `Record.framed` — a record that gives some number as its length; `Record.encode_eq` — the right one.
* `record?_encode`, `records?_encode` — one record, and all records of a member.
* `value?_records` — a record by its key.
-/

namespace Provision

open ArchiveReader

/-! ## The length of a record -/

namespace Record

theorem digits_eq (n : Nat) : digits n = (utf8 (toString n)).length := by
  rw [digits_eq_length, Nat.toString_eq_ofList_toDigits, octets_toDigits (by decide) (by decide), List.length_map]

variable {base n : Nat}

theorem settle_eq {length : Nat} (h : length ≤ base + digits length) :
    settle base length h = base + digits (settle base length h) := by
  fun_induction settle base length h with
  | case1 length h heq => exact heq.symm
  | case2 length h hne ih => exact ih

/-- No number that counts its own digits is passed. -/
theorem settle_le {length : Nat} (h : length ≤ base + digits length) (hn : base + digits n = n) (hle : length ≤ n) :
    settle base length h ≤ n := by
  fun_induction settle base length h with
  | case1 length h heq => exact hle
  | case2 length h hne ih =>
    -- A smaller number has no more digits than the one that is to be passed.
    apply ih
    calc base + digits length ≤ base + digits n := Nat.add_le_add_left (digits_mono hle) base
      _ = n := hn

/-- The length of a record counts its own digits. -/
theorem length_eq (base : Nat) : length base = base + digits (length base) := settle_eq _

theorem length_le (hn : base + digits n = n) : Record.length base ≤ n :=
  settle_le _ hn (hn ▸ Nat.add_le_add_left (digits_mono (hn ▸ Nat.le_add_right _ _)) base)

/-- The record behind its length and the blank. -/
def body (key : String) (value : Octets) : Octets := utf8 key ++ 0x3D :: (value ++ [0x0A])

/-- A record that gives `n` as its length. -/
def framed (n : Nat) (key : String) (value : Octets) : Octets :=
  utf8 (toString n) ++ utf8 " " ++ utf8 key ++ utf8 "=" ++ value ++ utf8 "\n"

theorem encode_eq_framed (key : String) (value : Octets) :
    encode key value = framed (length ((utf8 key).length + value.length + 3)) key value := rfl

theorem framed_eq (n : Nat) (key : String) (value : Octets) :
    framed n key value = utf8 (toString n) ++ 0x20 :: body key value := by
  simp only [framed, body, List.append_assoc]
  rfl

theorem length_framed (n : Nat) (key : String) (value : Octets) :
    (framed n key value).length = (utf8 key).length + value.length + 3 + digits n := by
  rw [framed_eq, digits_eq]
  simp only [body, List.length_append, List.length_cons, List.length_nil]
  omega

/-- A record begins with its own length. -/
theorem encode_eq (key : String) (value : Octets) :
    ∃ n, encode key value = utf8 (toString n) ++ 0x20 :: body key value ∧
      (encode key value).length = n := by
  refine ⟨_, framed_eq _ key value, ?_⟩
  rw [encode_eq_framed, length_framed, ← length_eq]

end Record

/-! ## Reading -/

/-- A record is read back, whatever octets its value has. -/
theorem record?_encode {key : String} (h : 0x3D ∉ utf8 key) (value rest : Octets) :
    record? (Record.encode key value ++ rest) = some ((utf8 key, value), rest) := by
  obtain ⟨n, hencode, hlength⟩ := Record.encode_eq key value
  have hblank : 0x20 ∉ utf8 (toString n) := by
    intro hmem
    rw [Nat.toString_eq_ofList_toDigits] at hmem
    have hge := le_toNat_of_mem_digits (by decide) (by decide)
      (List.mem_append_right (List.replicate 0 0x30) hmem)
    exact absurd hge (by decide)
  have hdigits : (Record.encode key value ++ rest).takeWhile (· ≠ 0x20) = utf8 (toString n) := by
    rw [hencode, List.append_assoc, List.cons_append, takeWhile_ne_append hblank (by simp)]
  have hbody : ((Record.encode key value ++ rest).take n).drop ((utf8 (toString n)).length + 1) =
      Record.body key value := by
    rw [← hlength, List.take_left, hlength, hencode, ← List.drop_drop, List.drop_left]
    rfl
  have hkey : (Record.body key value).takeWhile (· ≠ 0x3D) = utf8 key :=
    takeWhile_ne_append h (by simp)
  have hvalue : ((Record.body key value).drop ((utf8 key).length + 1)).dropLast = value := by
    rw [Record.body, ← List.drop_drop, List.drop_left]
    exact List.dropLast_concat
  -- The equals sign is there, and so is the newline.
  have hne : utf8 key ≠ Record.body key value := by
    intro heq
    have := congrArg List.length heq
    simp [Record.body] at this
  have hlast : (Record.body key value).getLast? = some 0x0A := by
    rw [Record.body, ← List.cons_append, ← List.append_assoc, List.getLast?_concat]
  have hle : n ≤ (Record.encode key value ++ rest).length := by
    rw [List.length_append, hlength]
    exact Nat.le_add_right _ _
  rw [record?, hdigits, number?_toString]
  simp only [hbody, hkey, hvalue]
  rw [if_pos ⟨hle, hne, hlast⟩, ← hlength, List.drop_left]

theorem length_encode_pos (key : String) (value : Octets) : 0 < (Record.encode key value).length := by
  obtain ⟨n, hencode, -⟩ := Record.encode_eq key value
  rw [hencode, List.length_append, List.length_cons]
  omega

theorem records?_encode {l : List (String × Octets)} (h : ∀ e ∈ l, 0x3D ∉ utf8 e.1) :
    records? (l.flatMap fun (key, value) => Record.encode key value) =
      some (l.map fun (key, value) => (utf8 key, value)) := by
  induction l with
  | nil =>
    rw [records?]
    rfl
  | cons e l ih =>
    obtain ⟨key, value⟩ := e
    have hpos := length_encode_pos key value
    have hne : Record.encode key value ++ l.flatMap (fun (key, value) => Record.encode key value) ≠
        [] := fun heq => by simp [(List.append_eq_nil_iff.1 heq).1] at hpos
    rw [records?, List.flatMap_cons, if_neg hne,
      record?_encode (h _ List.mem_cons_self)]
    simp only [List.length_append]
    rw [dif_pos (by omega), ih fun e he => h e (List.mem_cons_of_mem _ he)]
    rfl

/-! ## Records by key -/

theorem value?_records (records : ExtendedRecords) (key : String) :
    value? (records.entries.map fun (key, value) => (utf8 key, value)) key = records.find? key := by
  have hfound : ∀ r ∈ (records.entries.map fun (key, value) => (utf8 key, value)).filter
      (fun record => record.1 = utf8 key), records.find? key = some r.2 := by
    intro r hr
    obtain ⟨hmem, hkey⟩ := List.mem_filter.1 hr
    obtain ⟨⟨key', value⟩, hentry, rfl⟩ := List.mem_map.1 hmem
    rw [← utf8_injective (of_decide_eq_true hkey)]
    exact SortedMap.mem_entries_iff.1 hentry
  rw [value?]
  cases hlast : ((records.entries.map fun (key, value) => (utf8 key, value)).filter
      fun record => record.1 = utf8 key).getLast? with
  | some r => exact (hfound r (List.mem_of_getLast? hlast)).symm
  | none =>
    rw [List.getLast?_eq_none_iff, List.filter_eq_nil_iff] at hlast
    cases hfind : records.find? key with
    | none => rfl
    | some value =>
      have hmem := List.mem_map_of_mem (f := fun (key, value) => (utf8 key, value))
        (SortedMap.mem_entries_of_find? hfind)
      exact absurd (decide_eq_true rfl) (hlast _ hmem)

end Provision
