import Provision.Octets
import Provision.Text.Digits

/-! # Octets of texts

What the octets of a text tell of its characters, as far as whoever reads them back relies on it.

* `utf8_eq_flatMap` — the octets of a text, character by character; `textOf?_utf8` — they are read back.
* `octet_not_mem_utf8` — an octet below 0x80 stands for its own character and nothing else; `count_utf8` — it is there
  as often as the character.
* `octets_toDigits` — digits, one octet each; `exists_of_mem_toDigits` — each stands for its value.
-/

namespace Provision

/-! ## Characters -/

/-- The one octet of a character below 0x80. -/
def octet (c : Char) : UInt8 := .ofNat c.toNat

theorem utf8_ofList (cs : List Char) :
    utf8 (String.ofList cs) = cs.flatMap String.utf8EncodeChar := by
  rw [utf8, String.toByteArray_ofList, List.utf8Encode, List.toList_data_toByteArray]

theorem utf8_eq_flatMap (s : String) : utf8 s = s.toList.flatMap String.utf8EncodeChar := by
  rw [← utf8_ofList, String.ofList_toList]

/-- A character that takes several octets has none below 0x80. -/
theorem toNat_eq_of_mem_utf8EncodeChar {c : Char} {b : UInt8} (hb : b ∈ String.utf8EncodeChar c)
    (hlt : b.toNat < 0x80) : c.toNat = b.toNat := by
  have hval : c.val.toNat = c.toNat := rfl
  unfold String.utf8EncodeChar at hb
  simp only at hb
  split at hb
  · rw [List.mem_singleton.1 hb, UInt8.toNat_ofNat']
    omega
  · split at hb
    · simp only [List.mem_cons, List.not_mem_nil, or_false] at hb
      rcases hb with rfl | rfl <;> rw [UInt8.toNat_ofNat'] at hlt <;> omega
    · split at hb
      · simp only [List.mem_cons, List.not_mem_nil, or_false] at hb
        rcases hb with rfl | rfl | rfl <;> rw [UInt8.toNat_ofNat'] at hlt <;> omega
      · simp only [List.mem_cons, List.not_mem_nil, or_false] at hb
        rcases hb with rfl | rfl | rfl | rfl <;> rw [UInt8.toNat_ofNat'] at hlt <;> omega

/-- The octets of a text are read back as the text. -/
theorem textOf?_utf8 (s : String) : textOf? (utf8 s) = some s := by
  have hvalid : (ByteArray.mk (utf8 s).toArray).IsValidUTF8 := s.isValidUTF8
  rw [textOf?, String.fromUTF8?, dif_pos hvalid]
  rfl

theorem utf8EncodeChar_of_lt {c : Char} (h : c.toNat < 0x80) :
    String.utf8EncodeChar c = [octet c] := by
  have hval : c.val.toNat = c.toNat := rfl
  unfold String.utf8EncodeChar
  simp only
  rw [if_pos (by omega)]
  rfl

theorem toNat_octet {c : Char} (h : c.toNat < 0x80) : (octet c).toNat = c.toNat := by
  rw [octet, UInt8.toNat_ofNat']
  omega

/-- An octet below 0x80 is in a text only as the character it stands for. -/
theorem octet_not_mem_utf8 {s : String} {c : Char} (hc : c.toNat < 0x80) (h : c ∉ s.toList) :
    octet c ∉ utf8 s := by
  intro hmem
  rw [utf8_eq_flatMap] at hmem
  obtain ⟨c', hc', hb⟩ := List.mem_flatMap.1 hmem
  have hnat := toNat_eq_of_mem_utf8EncodeChar hb (by rw [toNat_octet hc]; exact hc)
  rw [toNat_octet hc] at hnat
  exact h (Char.toNat_inj.1 hnat ▸ hc')

theorem count_utf8EncodeChar {c : Char} (hc : c.toNat < 0x80) (c' : Char) :
    (String.utf8EncodeChar c').count (octet c) = [c'].count c := by
  by_cases h : c' = c
  · subst h
    rw [utf8EncodeChar_of_lt hc, List.count_singleton_self, List.count_singleton_self]
  · have hnot : octet c ∉ utf8 (String.ofList [c']) :=
      octet_not_mem_utf8 hc (by simpa using Ne.symm h)
    rw [utf8_ofList, List.flatMap_singleton] at hnot
    rw [List.count_eq_zero.2 hnot, List.count_eq_zero.2 (by simpa using Ne.symm h)]

/-- A character below 0x80 is in a text as often as its octet is in the octets of the text. -/
theorem count_utf8 {c : Char} (hc : c.toNat < 0x80) (s : String) : (utf8 s).count (octet c) = s.toList.count c := by
  rw [utf8_eq_flatMap]
  induction s.toList with
  | nil => rfl
  | cons c' cs ih =>
    rw [List.flatMap_cons, List.count_append, ih, count_utf8EncodeChar hc, ← List.count_append, List.singleton_append]

theorem utf8_ofList_of_lt {cs : List Char} (h : ∀ c ∈ cs, c.toNat < 0x80) :
    utf8 (String.ofList cs) = cs.map octet := by
  rw [utf8_ofList]
  induction cs with
  | nil => rfl
  | cons c cs ih =>
    rw [List.flatMap_cons, utf8EncodeChar_of_lt (h c List.mem_cons_self), List.map_cons,
      ih fun c hc => h c (List.mem_cons_of_mem _ hc)]
    rfl

/-! ## Digits -/

/-- Each digit of a number stands for a value below the base. -/
theorem exists_of_mem_toDigits {base n : Nat} (hbase : 1 < base) {c : Char}
    (h : c ∈ Nat.toDigits base n) : ∃ d < base, c = d.digitChar := by
  induction n using Nat.strongRecOn with
  | ind n ih =>
    rw [Nat.toDigits_eq_if hbase] at h
    split at h
    · rename_i hlt
      exact ⟨n, hlt, List.mem_singleton.1 h⟩
    · rename_i hge
      rcases List.mem_append.1 h with h | h
      · exact ih (n / base) (Nat.div_lt_self (by omega) hbase) h
      · exact ⟨n % base, Nat.mod_lt _ (by omega), List.mem_singleton.1 h⟩

theorem octets_toDigits {base n : Nat} (hbase : 1 < base) (hten : base ≤ 10) :
    utf8 (String.ofList (Nat.toDigits base n)) = (Nat.toDigits base n).map octet := by
  apply utf8_ofList_of_lt
  intro c hc
  obtain ⟨d, hd, rfl⟩ := exists_of_mem_toDigits hbase hc
  rw [Nat.toNat_digitChar_of_lt_ten (by omega)]
  omega

theorem toNat_octet_digit {d : Nat} (h : d < 10) : (octet d.digitChar).toNat = 0x30 + d := by
  have hnat := Nat.toNat_digitChar_of_lt_ten h
  rw [toNat_octet (by omega), hnat]

end Provision
