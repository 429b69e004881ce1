import Provision.Output.Rendering
import Provision.Proofs.Output.Sink

/-! # Pieces in a sink

Pieces that are written one after the other are in the sink one behind the other, up to the offset at which it fails. The
failure is reported for the owner of the piece in which that offset lies.

* `Pieces.ownerAt?` — the owner of the octet at an offset.
* `writeTo_of_fits`, `writeTo_of_exceeds` — pieces written to any sink; `writeTo_unlimited` — to one that takes everything.
-/

namespace Provision

/-! ## Pieces -/

namespace Pieces

/-- The owner of the piece in which an offset lies. -/
def ownerAt? : Pieces → Nat → Option Owner
  | [], _ => none
  | (owner, octets) :: rest, offset =>
    if offset < octets.length then some owner else ownerAt? rest (offset - octets.length)

@[simp]
theorem octets_cons (owner : Owner) (written : Octets) (rest : Pieces) :
    octets ((owner, written) :: rest) = written ++ octets rest := rfl

theorem octets_append (pieces more : Pieces) : octets (pieces ++ more) = octets pieces ++ octets more :=
  List.flatMap_append

theorem octets_flatMap {α : Type} (l : List α) (f : α → Pieces) :
    octets (l.flatMap f) = l.flatMap fun a => octets (f a) :=
  List.flatMap_assoc

theorem exists_ownerAt? {pieces : Pieces} {offset : Nat} (h : offset < pieces.octets.length) :
    ∃ owner, ownerAt? pieces offset = some owner := by
  induction pieces generalizing offset with
  | nil => simp [octets] at h
  | cons piece rest ih =>
    obtain ⟨owner, octets⟩ := piece
    rw [ownerAt?]
    split
    · exact ⟨owner, rfl⟩
    · rw [octets_cons, List.length_append] at h
      exact ih (by omega)

theorem ownerAt?_append_of_lt {pieces : Pieces} {offset : Nat} (h : offset < pieces.octets.length)
    (more : Pieces) : ownerAt? (pieces ++ more) offset = ownerAt? pieces offset := by
  induction pieces generalizing offset with
  | nil => simp [octets] at h
  | cons piece rest ih =>
    obtain ⟨owner, octets⟩ := piece
    rw [List.cons_append, ownerAt?, ownerAt?]
    split
    · rfl
    · rw [octets_cons, List.length_append] at h
      exact ih (by omega)

theorem ownerAt?_append_of_le {pieces : Pieces} {offset : Nat} (h : pieces.octets.length ≤ offset)
    (more : Pieces) :
    ownerAt? (pieces ++ more) offset = ownerAt? more (offset - pieces.octets.length) := by
  induction pieces generalizing offset with
  | nil => rfl
  | cons piece rest ih =>
    obtain ⟨owner, octets⟩ := piece
    rw [octets_cons, List.length_append] at h ⊢
    rw [List.cons_append, ownerAt?, if_neg (by omega), ih (by omega), Nat.sub_sub]

theorem mem_of_ownerAt? {pieces : Pieces} {offset : Nat} {owner : Owner}
    (h : ownerAt? pieces offset = some owner) : owner ∈ pieces.map (·.1) := by
  induction pieces generalizing offset with
  | nil => cases h
  | cons piece rest ih =>
    obtain ⟨first, octets⟩ := piece
    rw [ownerAt?] at h
    split at h
    · cases h
      exact List.mem_cons_self
    · exact List.mem_cons_of_mem _ (ih h)

/-- Where all pieces have one owner, so has every offset. -/
theorem ownerAt?_of_forall {pieces : Pieces} {owner : Owner} (hall : ∀ piece ∈ pieces, piece.1 = owner)
    {offset : Nat} (h : offset < pieces.octets.length) : ownerAt? pieces offset = some owner := by
  obtain ⟨found, hfound⟩ := exists_ownerAt? h
  obtain ⟨piece, hpiece, rfl⟩ := List.mem_map.1 (mem_of_ownerAt? hfound)
  rw [hfound, hall piece hpiece]

/-! ## Pieces in a sink -/

theorem writeTo_of_fits {s : Sink} {pieces : Pieces}
    (h : ∀ limit, s.limit = some limit → s.offset + pieces.octets.length ≤ limit) :
    ∃ interrupts ⊆ s.interrupts, pieces.writeTo s =
      ({ s with received := s.received ++ pieces.octets, interrupts }, .ok ()) := by
  induction pieces generalizing s with
  | nil => exact ⟨s.interrupts, List.Subset.refl _, by simp [writeTo, octets]⟩
  | cons piece rest ih =>
    obtain ⟨owner, octets⟩ := piece
    simp only [octets_cons, List.length_append] at h
    have hroom : ∀ limit, s.limit = some limit → s.offset + octets.length ≤ limit := by
      intro limit hlimit
      have := h limit hlimit
      omega
    obtain ⟨interrupts, hinterrupts, hfirst⟩ := Sink.writeAll_of_fits hroom
    rw [writeTo, hfirst]
    -- The sink goes on with what it has taken of this piece, at a later offset.
    obtain ⟨interrupts', hinterrupts', hrest⟩ := ih
      (s := { s with received := s.received ++ octets, interrupts }) fun limit hlimit => by
        have := h limit hlimit
        simp only [Sink.offset, List.length_append] at this ⊢
        omega
    exact ⟨interrupts', List.Subset.trans hinterrupts' hinterrupts, by simp only [hrest, octets_cons, List.append_assoc]⟩

/-- A sink that takes everything has all pieces, one behind the other. -/
theorem writeTo_unlimited (pieces : Pieces) (received : Octets) :
    pieces.writeTo { Sink.unlimited with received } =
      ({ Sink.unlimited with received := received ++ pieces.octets }, .ok ()) := by
  obtain ⟨interrupts, hinterrupts, hwritten⟩ :=
    @writeTo_of_fits { Sink.unlimited with received } pieces nofun
  rw [hwritten, List.subset_nil.1 hinterrupts]
  rfl

theorem writeTo_of_exceeds {s : Sink} {pieces : Pieces} {limit : Nat} (hlimit : s.limit = some limit)
    (hle : s.offset ≤ limit) (hlt : limit < s.offset + pieces.octets.length) :
    ∃ owner interrupts, ownerAt? pieces (limit - s.offset) = some owner ∧ pieces.writeTo s =
      ({ s with received := s.received ++ pieces.octets.take (limit - s.offset), limit := none, interrupts },
        .error (owner.error s.cause)) := by
  induction pieces generalizing s with
  | nil =>
    simp only [octets, List.flatMap_nil, List.length_nil] at hlt
    omega
  | cons piece rest ih =>
    obtain ⟨owner, octets⟩ := piece
    simp only [octets_cons, List.length_append] at hlt
    by_cases hcut : limit < s.offset + octets.length
    · -- The sink fails in this piece, and what comes behind it is not written.
      obtain ⟨interrupts, hfirst⟩ := Sink.writeAll_of_exceeds hlimit hle hcut
      refine ⟨owner, interrupts, by rw [ownerAt?, if_pos (by omega)], ?_⟩
      rw [writeTo, hfirst, octets_cons, List.take_append_of_le_length (by omega)]
    · have hroom : ∀ limit, s.limit = some limit → s.offset + octets.length ≤ limit := by
        intro limit' hlimit'
        obtain rfl := Option.some.inj (hlimit.symm.trans hlimit')
        omega
      obtain ⟨interrupts, -, hfirst⟩ := Sink.writeAll_of_fits hroom
      simp only [Sink.offset] at hle hlt hcut ⊢
      obtain ⟨found, interrupts', hfound, hrest⟩ := ih
        (s := { s with received := s.received ++ octets, interrupts }) hlimit
        (by simp only [Sink.offset, List.length_append]; omega)
        (by simp only [Sink.offset, List.length_append]; omega)
      simp only [Sink.offset, List.length_append, ← Nat.sub_sub] at hfound hrest
      refine ⟨found, interrupts', ?_, ?_⟩
      · rwa [ownerAt?, if_neg (by omega)]
      · rw [writeTo, hfirst, octets_cons, List.take_append, List.take_of_length_le (by omega)]
        simp only [hrest, List.append_assoc]

end Pieces

end Provision
