import Provision.Archive.Member
import Provision.Proofs.Octets
import Provision.Proofs.Spelling

/-! # Member names

* `zero_not_mem_nameOf`, `head?_nameOf` — names hold no NUL and do not begin with a separator.
* `split?_joined` — the two parts of a name that was split, joined again.
-/

namespace Provision.Member

/-! ## Names of nodes -/

theorem nul_not_mem_nameOf (path : TargetPath) (entry : Entry) :
    '\x00' ∉ (nameOf path entry).toList := by
  have hrelative : '\x00' ∉ path.relative.toList := by
    unfold TargetPath.relative
    split
    · decide
    · exact TargetPath.not_mem_intercalate (by decide) fun s hs => (path.valid s hs).2.2.2.2
  unfold nameOf
  split
  · rw [String.toList_append, List.mem_append, not_or]
    exact ⟨hrelative, by decide⟩
  · exact hrelative

theorem zero_not_mem_nameOf (path : TargetPath) (entry : Entry) : 0 ∉ utf8 (nameOf path entry) :=
  octet_not_mem_utf8 (by decide) (nul_not_mem_nameOf path entry)

/-- A name begins with a first segment, or with the name of the directory itself. -/
theorem exists_nameOf_eq (path : TargetPath) (entry : Entry) :
    ∃ first rest, nameOf path entry = first ++ rest ∧ first ≠ "" ∧ '/' ∉ first.toList := by
  have hrelative : ∃ first rest, path.relative = first ++ rest ∧ first ≠ "" ∧ '/' ∉ first.toList := by
    unfold TargetPath.relative
    split
    · exact ⟨".", "", by simp, by decide, by decide⟩
    · rename_i hne
      obtain ⟨s, segments, hs⟩ := List.exists_cons_of_ne_nil hne
      have hvalid := path.valid s (by rw [hs]; exact List.mem_cons_self)
      rw [hs]
      by_cases hnil : segments = []
      · exact ⟨s, "", by rw [hnil, String.intercalate_singleton, String.append_empty],
          hvalid.1, hvalid.2.2.2.1⟩
      · exact ⟨s, "/" ++ String.intercalate "/" segments,
          by rw [String.intercalate_cons_of_ne_nil hnil, String.append_assoc],
          hvalid.1, hvalid.2.2.2.1⟩
  obtain ⟨first, rest, heq, hne, hsep⟩ := hrelative
  unfold nameOf
  split
  · exact ⟨first, rest ++ "/", by rw [heq, String.append_assoc], hne, hsep⟩
  · exact ⟨first, rest, heq, hne, hsep⟩

theorem head?_nameOf (path : TargetPath) (entry : Entry) :
    (utf8 (nameOf path entry)).head? ≠ some 0x2F := by
  obtain ⟨first, rest, heq, hne, hsep⟩ := exists_nameOf_eq path entry
  obtain ⟨b, octets, hfirst⟩ := List.exists_cons_of_ne_nil (utf8_ne_nil hne)
  rw [heq, utf8_append, hfirst]
  intro hhead
  cases hhead
  exact octet_not_mem_utf8 (by decide) hsep (hfirst ▸ List.mem_cons_self)

/-! ## Splitting -/

theorem splitAt?_eq_some {front name directory short : Octets}
    (h : splitAt? front name = some (directory, short)) :
    front ++ name = directory ++ 0x2F :: short ∧ directory.length ≤ 155 ∧ short.length ≤ 100 := by
  induction name generalizing front with
  | nil => cases h
  | cons b rest ih =>
    rw [splitAt?] at h
    split at h
    · cases h
    · split at h
      · rename_i hlength hsplit
        cases h
        exact ⟨by rw [hsplit.1], Nat.le_of_not_lt hlength, hsplit.2.2⟩
      · obtain ⟨heq, hlengths⟩ := ih h
        exact ⟨by rw [← heq, List.append_assoc, List.singleton_append], hlengths⟩

/-- The parts of a name that was split have room in their fields and are joined to the name again. -/
theorem split?_joined {name directory short : Octets} (hname : name.head? ≠ some 0x2F)
    (h : split? name = some (directory, short)) :
    (if directory = [] then short else directory ++ 0x2F :: short) = name ∧
      directory.length ≤ 155 ∧ short.length ≤ 100 := by
  unfold split? at h
  split at h
  · rename_i hlength
    cases h
    exact ⟨if_pos rfl, by simp, hlength⟩
  · obtain ⟨heq, hlengths⟩ := splitAt?_eq_some h
    rw [List.nil_append] at heq
    refine ⟨?_, hlengths⟩
    -- A front part that is empty would make the name begin with a separator.
    rw [if_neg, heq]
    rintro rfl
    exact hname (by rw [heq]; rfl)

end Provision.Member
