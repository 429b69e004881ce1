import Provision.Permissions
import Provision.Proofs.Octets

/-! # Modes as text

A mode is read from three or four octal digits, as the number that they write. It is written with four of them, which are
read back.

* `Mode.parse_eq_ok_iff`, `Mode.ofInt_eq_ok_iff` — which texts and numbers are modes.
* `Mode.length_text`, `Mode.parse_text` — what is written has four digits and is read back.
-/

namespace Provision

/-! ## Octal digits -/

theorem number_eq_ofDigitChars (base : Nat) {digits : List Char} (h : ∀ c ∈ digits, Text.isDigit c) :
    Text.number base digits = Nat.ofDigitChars base digits 0 := by
  have hfold (init : Nat) : digits.foldl (fun n c => n * base + Text.digitValue c) init =
      Nat.ofDigitChars base digits init := by
    induction digits generalizing init with
    | nil => simp
    | cons c digits ih =>
      rw [List.foldl_cons, Nat.ofDigitChars_cons, ih fun c hc => h c (List.mem_cons_of_mem _ hc), Text.digitValue,
        if_pos (h c List.mem_cons_self), Nat.mul_comm]
  exact hfold 0

/-- Whether a character is an octal digit. -/
def IsOctalDigit (c : Char) : Prop := '0' ≤ c ∧ c ≤ '7'

theorem isOctalDigit_iff {c : Char} : IsOctalDigit c ↔ Text.isDigit c ∧ ¬ '7' < c := by
  rw [IsOctalDigit, Text.isDigit, Bool.and_eq_true, decide_eq_true_eq, decide_eq_true_eq, Char.not_lt]
  have hle : '7' ≤ '9' := by decide
  exact ⟨fun ⟨hzero, hseven⟩ => ⟨⟨hzero, Char.le_trans hseven hle⟩, hseven⟩, fun ⟨⟨hzero, _⟩, hseven⟩ => ⟨hzero, hseven⟩⟩

theorem IsOctalDigit.toNat_le {c : Char} (h : IsOctalDigit c) : c.toNat - '0'.toNat ≤ 7 :=
  Nat.sub_le_sub_right (show c.toNat ≤ '7'.toNat from h.2) _

/-- Up to four octal digits write no more than a mode can be. -/
theorem ofDigitChars_le_largest {digits : List Char} (hlength : digits.length = 3 ∨ digits.length = 4)
    (h : ∀ c ∈ digits, IsOctalDigit c) : Nat.ofDigitChars 8 digits 0 ≤ Mode.largest := by
  have hvalue : ∀ c ∈ digits, c.toNat - '0'.toNat ≤ 7 := fun c hc => (h c hc).toNat_le
  rw [Mode.largest]
  match digits, hlength with
  | [a, b, c], _ | [a, b, c, d], _ =>
    simp only [List.forall_mem_cons, List.not_mem_nil, false_imp_iff, implies_true, and_true] at hvalue
    simp only [Nat.ofDigitChars_cons, Nat.ofDigitChars_nil]
    omega

namespace Mode

/-! ## Reading -/

theorem ofBits_eq_ok_iff {bits : Nat} {mode : Mode} : ofBits bits = .ok mode ↔ mode.bits = bits ∧ bits ≤ largest := by
  obtain ⟨bits'⟩ := mode
  rw [ofBits, fault?]
  by_cases hle : bits ≤ largest <;> simp [hle, eq_comm]

/-- A number is the mode with these bits, if it is in range. -/
theorem ofInt_eq_ok_iff {number : Int} {mode : Mode} :
    ofInt number = .ok mode ↔ number = mode.bits ∧ mode.bits ≤ largest := by
  have hlargest : largest < UInt32.size := by decide
  rw [ofInt]
  split
  · rw [ofBits_eq_ok_iff]
    omega
  · simp only [reduceCtorEq, false_iff]
    omega

/-- A text is read as a mode if it has three or four octal digits and nothing else; it is the number that they write. -/
theorem parse_eq_ok_iff {text : String} {mode : Mode} : parse text = .ok mode ↔
    (text.length = 3 ∨ text.length = 4) ∧ (∀ c ∈ text.toList, IsOctalDigit c) ∧
      mode.bits = Nat.ofDigitChars 8 text.toList 0 := by
  rw [← String.length_toList]
  have hoctal : (∀ c ∈ text.toList, IsOctalDigit c) ↔
      text.toList.all Text.isDigit ∧ text.toList.find? (fun c => decide ('7' < c)) = none := by
    simp only [isOctalDigit_iff, List.all_eq_true, List.find?_eq_none, decide_eq_true_eq]
    exact ⟨fun h => ⟨fun c hc => (h c hc).1, fun c hc => (h c hc).2⟩, fun h c hc => ⟨h.1 c hc, h.2 c hc⟩⟩
  constructor
  · intro h
    unfold parse at h
    simp only [Bool.not_eq_true'] at h
    split at h
    · cases h
    · split at h
      · cases h
      · rename_i hdigits hlength
        split at h
        · cases h
        · rename_i hfind
          have hall : text.toList.all Text.isDigit = true := by simpa using hdigits
          rw [number_eq_ofDigitChars 8 (List.all_eq_true.1 hall)] at h
          exact ⟨by omega, hoctal.2 ⟨hall, hfind⟩, (ofBits_eq_ok_iff.1 h).1⟩
  · rintro ⟨hlength, hdigits, hbits⟩
    obtain ⟨hall, hfind⟩ := hoctal.1 hdigits
    have hthree : ¬(text.toList.length ≠ 3 ∧ text.toList.length ≠ 4) := by omega
    simp only [parse, hall, hthree, hfind, number_eq_ofDigitChars 8 (List.all_eq_true.1 hall)]
    exact ofBits_eq_ok_iff.2 ⟨hbits, ofDigitChars_le_largest hlength hdigits⟩

/-! ## Writing -/

variable {mode : Mode} (h : mode.fault? = none)
include h

/-- A mode is written with as many zeros in front as make it four digits. -/
theorem toList_text : ∃ zeros, zeros + (Nat.toDigits 8 mode.bits).length = 4 ∧
    mode.text.toList = List.replicate zeros '0' ++ Nat.toDigits 8 mode.bits := by
  have hlt : mode.bits < 8 ^ 4 := Nat.lt_succ_of_le (fault?_eq_none_iff.1 h)
  have hlength := (Nat.length_toDigits_le_iff (b := 8) (k := 4) (by decide) (by decide)).2 hlt
  refine ⟨4 - (Nat.toDigits 8 mode.bits).length, by omega, ?_⟩
  simp [text, Text.padded, Text.octal]

theorem length_text : mode.text.length = 4 := by
  obtain ⟨zeros, hzeros, hwritten⟩ := toList_text h
  rw [← String.length_toList, hwritten, List.length_append, List.length_replicate, hzeros]

/-- The digits of a mode are read as the mode. -/
theorem parse_text : parse mode.text = .ok mode := by
  obtain ⟨zeros, -, hwritten⟩ := toList_text h
  refine parse_eq_ok_iff.2 ⟨.inr (length_text h), fun c hc => ?_, ?_⟩
  · -- The zeros in front are octal digits as the others are, and do not count.
    have hoctal : ∀ d < 8, '0' ≤ d.digitChar ∧ d.digitChar ≤ '7' := by decide
    rw [hwritten] at hc
    rcases List.mem_append.1 hc with hc | hc
    · rw [List.eq_of_mem_replicate hc]
      exact ⟨by decide, by decide⟩
    · obtain ⟨d, hd, rfl⟩ := exists_of_mem_toDigits (by decide) hc
      exact hoctal d hd
  · rw [hwritten, Nat.ofDigitChars_append, Nat.ofDigitChars_replicate_zero, Nat.mul_zero,
      Nat.ofDigitChars_toDigits (by decide) (by decide)]

end Mode

end Provision
