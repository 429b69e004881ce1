/-! # Separated lists

* `pieces` — the pieces of a list between separators. No piece holds one (`sep_not_mem_pieces`), and what is
  put together from pieces comes apart into them again (`pieces_append_sep`, `pieces_of_not_mem`).
-/

namespace Provision

variable {α : Type} [DecidableEq α]

/-- The pieces of a text between separators; `n` separators make `n + 1` pieces. -/
def pieces (sep : α) : List α → List (List α)
  | [] => [[]]
  | c :: rest =>
    if c = sep then [] :: pieces sep rest
    else match pieces sep rest with
      | [] => [[c]]
      | first :: more => (c :: first) :: more

theorem pieces_ne_nil (sep : α) (cs : List α) : pieces sep cs ≠ [] := by
  cases cs with
  | nil => simp [pieces]
  | cons c rest =>
    simp only [pieces]
    split
    · simp
    · split <;> simp

theorem sep_not_mem_pieces {sep : α} {cs piece : List α} (h : piece ∈ pieces sep cs) :
    sep ∉ piece := by
  induction cs generalizing piece with
  | nil => simp_all [pieces]
  | cons c rest ih =>
    simp only [pieces] at h
    split at h
    · rcases List.mem_cons.1 h with rfl | h
      · simp
      · exact ih h
    · rename_i hc
      split at h
      · rename_i hnil
        exact absurd hnil (pieces_ne_nil sep rest)
      · rename_i first more heq
        rcases List.mem_cons.1 h with rfl | h
        · intro hmem
          rcases List.mem_cons.1 hmem with h' | h'
          · exact hc h'.symm
          · exact ih (heq ▸ List.mem_cons_self) h'
        · exact ih (heq ▸ List.mem_cons_of_mem _ h)

theorem mem_of_mem_pieces {sep c : α} {cs piece : List α} (h : piece ∈ pieces sep cs)
    (hc : c ∈ piece) : c ∈ cs := by
  induction cs generalizing piece with
  | nil => simp_all [pieces]
  | cons c' rest ih =>
    simp only [pieces] at h
    split at h
    · rcases List.mem_cons.1 h with rfl | h
      · simp at hc
      · exact List.mem_cons_of_mem _ (ih h hc)
    · split at h
      · rename_i hnil
        exact absurd hnil (pieces_ne_nil sep rest)
      · rename_i first more heq
        rcases List.mem_cons.1 h with rfl | h
        · rcases List.mem_cons.1 hc with rfl | hc
          · exact List.mem_cons_self
          · exact List.mem_cons_of_mem _ (ih (heq ▸ List.mem_cons_self) hc)
        · exact List.mem_cons_of_mem _ (ih (heq ▸ List.mem_cons_of_mem _ h) hc)

theorem pieces_append_sep {sep : α} {piece : List α} (h : sep ∉ piece) (rest : List α) :
    pieces sep (piece ++ sep :: rest) = piece :: pieces sep rest := by
  induction piece with
  | nil => simp [pieces]
  | cons c more ih =>
    have hc : c ≠ sep := fun e => h (e ▸ List.mem_cons_self)
    simp [pieces, hc, ih fun hm => h (List.mem_cons_of_mem _ hm)]

theorem pieces_of_not_mem {sep : α} {piece : List α} (h : sep ∉ piece) :
    pieces sep piece = [piece] := by
  induction piece with
  | nil => rfl
  | cons c more ih =>
    have hc : c ≠ sep := fun e => h (e ▸ List.mem_cons_self)
    simp [pieces, hc, ih fun hm => h (List.mem_cons_of_mem _ hm)]

end Provision
